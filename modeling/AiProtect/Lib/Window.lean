import Mathlib.Algebra.Order.Monoid.Defs
import Mathlib.Algebra.BigOperators.Group.List.Basic
import Mathlib.Algebra.Order.BigOperators.Group.List
import Mathlib.Data.List.Perm.Subperm
import Mathlib.Tactic.Linarith

/-! # Sliding windows over a log of weighted events

Time is any linearly ordered additive monoid. An event is recent at `now` while
`now` has not passed its time by more than the window's width. The module relates
three readings of "how much happened lately": the weights summed from the full
log, a list holding one timestamp per unit of weight, and the same list with its
expired front dropped. `Admitted` is the discipline of a limiter that checks the
window before each admission, and `intervalSum_le` its consequence for every
closed interval of the window's width. `Fitted` is the same discipline for a limiter
that does not begin with an empty window.
-/

universe u

namespace SlidingWindow

variable {α : Type u} [AddCommMonoid α] [LinearOrder α] [IsOrderedAddMonoid α]

def recent (width now time : α) : Bool := decide (now ≤ time + width)

omit [IsOrderedAddMonoid α] in
theorem recent_earlier {width early late time : α} (le : early ≤ late)
    (h : recent width late time = true) : recent width early time = true := by
  simp only [recent, decide_eq_true_eq] at h ⊢
  exact le.trans h

theorem recent_mono {width now time time' : α} (le : time ≤ time')
    (h : recent width now time = true) : recent width now time' = true := by
  simp only [recent, decide_eq_true_eq] at h ⊢
  exact h.trans (add_le_add_left le width)

omit [IsOrderedAddMonoid α] in
/-- Forgetting what has expired does not change what is recent later on. -/
theorem filter_recent_recent {width early late : α} (le : early ≤ late) (times : List α) :
    (times.filter (recent width early)).filter (recent width late) =
      times.filter (recent width late) := by
  rw [List.filter_filter]
  apply List.filter_congr
  intro time _
  cases h : recent width late time with
  | false => simp only [Bool.false_and]
  | true => simp only [Bool.true_and, recent_earlier le h]

omit [IsOrderedAddMonoid α] in
theorem filter_dropWhile (width now : α) (times : List α) :
    (times.dropWhile fun time => !recent width now time).filter (recent width now) =
      times.filter (recent width now) := by
  induction times with
  | nil => rfl
  | cons time times ih =>
      cases h : recent width now time with
      | true => rw [List.dropWhile_cons_of_neg (by simp [h])]
      | false => rw [List.dropWhile_cons_of_pos (by simp [h]), ih, List.filter_cons_of_neg (by simp [h])]

/-- On a sorted list, dropping the expired front keeps exactly what is recent. -/
theorem dropWhile_sorted {width now : α} {times : List α} (sorted : times.Pairwise (· ≤ ·)) :
    times.dropWhile (fun time => !recent width now time) = times.filter (recent width now) := by
  induction times with
  | nil => rfl
  | cons time times ih =>
      obtain ⟨below, rest⟩ := List.pairwise_cons.mp sorted
      cases h : recent width now time with
      | false => rw [List.dropWhile_cons_of_pos (by simp [h]), ih rest, List.filter_cons_of_neg (by simp [h])]
      | true =>
          have all : ∀ later ∈ time :: times, recent width now later = true := by
            intro later member
            rcases List.mem_cons.mp member with rfl | member
            · exact h
            · exact recent_mono (below later member) h
          rw [List.dropWhile_cons_of_neg (by simp [h]), List.filter_eq_self.mpr all]

section Admission

omit [AddCommMonoid α] [IsOrderedAddMonoid α]

variable {now : α} {window : List α}

/-- Units admitted at `now` go to the end of a sorted window that lies in the past. -/
theorem sorted_admitted (sorted : window.Pairwise (· ≤ ·)) (past : ∀ time ∈ window, time ≤ now) (count : ℕ) :
    (window ++ List.replicate count now).Pairwise (· ≤ ·) := by
  rw [List.pairwise_append]
  refine ⟨sorted, List.pairwise_replicate.mpr (.inr le_rfl), ?_⟩
  intro old before new added
  rw [List.eq_of_mem_replicate added]
  exact past old before

theorem past_admitted (past : ∀ time ∈ window, time ≤ now) (count : ℕ) :
    ∀ time ∈ window ++ List.replicate count now, time ≤ now := by
  intro time member
  rcases List.mem_append.mp member with old | new
  · exact past time old
  · exact (List.eq_of_mem_replicate new).le

end Admission

/-- The timestamps of a log, one for each unit of weight. -/
def units (log : List (α × ℕ)) : List α := log.flatMap fun event => List.replicate event.2 event.1

/-- The total weight of the events that `keep` selects by their time. -/
def sumWhere (keep : α → Bool) (log : List (α × ℕ)) : ℕ :=
  ((log.filter fun event => keep event.1).map Prod.snd).sum

section Sums

omit [AddCommMonoid α] [LinearOrder α] [IsOrderedAddMonoid α]

@[simp] theorem units_append (log more : List (α × ℕ)) : units (log ++ more) = units log ++ units more :=
  List.flatMap_append

@[simp] theorem units_singleton (time : α) (weight : ℕ) :
    units [(time, weight)] = List.replicate weight time := by
  simp only [units, List.flatMap_cons, List.flatMap_nil, List.append_nil]

theorem sumWhere_append (keep : α → Bool) (log more : List (α × ℕ)) :
    sumWhere keep (log ++ more) = sumWhere keep log + sumWhere keep more := by
  simp only [sumWhere, List.filter_append, List.map_append, List.sum_append]

theorem sumWhere_singleton (keep : α → Bool) (time : α) (weight : ℕ) :
    sumWhere keep [(time, weight)] = if keep time = true then weight else 0 := by
  cases h : keep time <;> simp [sumWhere, h]

theorem length_filter_units (keep : α → Bool) (log : List (α × ℕ)) :
    ((units log).filter keep).length = sumWhere keep log := by
  induction log with
  | nil => rfl
  | cons event log ih =>
      obtain ⟨time, weight⟩ := event
      have split : (time, weight) :: log = [(time, weight)] ++ log := rfl
      rw [split, units_append, sumWhere_append, List.filter_append, List.length_append, ih,
        units_singleton, sumWhere_singleton, List.filter_replicate]
      split
      · rw [List.length_replicate]
      · rfl

theorem sumWhere_le_of_imp {keep keep' : α → Bool} {log : List (α × ℕ)}
    (imp : ∀ event ∈ log, keep event.1 = true → keep' event.1 = true) :
    sumWhere keep log ≤ sumWhere keep' log := by
  induction log with
  | nil => exact Nat.le_refl _
  | cons event log ih =>
      obtain ⟨time, weight⟩ := event
      have rest := ih fun e member => imp e (List.mem_cons_of_mem _ member)
      have split : (time, weight) :: log = [(time, weight)] ++ log := rfl
      have here := imp (time, weight) List.mem_cons_self
      rw [split, sumWhere_append, sumWhere_append, sumWhere_singleton, sumWhere_singleton]
      cases h : keep time with
      | false => simp only [Bool.false_eq_true, if_false]; omega
      | true => simp only [here h, if_true]; omega

end Sums

/-- From the reading `floor` on, the window holds a timestamp for each unit of the
    log that is still recent. It may hold more. -/
def Retains (width : α) (floor : WithBot α) (log : List (α × ℕ)) (window : List α) : Prop :=
  ∀ later : α, floor ≤ (later : WithBot α) → ((units log).filter (recent width later)).Subperm window

section Retains

omit [IsOrderedAddMonoid α]

variable {width now : α} {floor : WithBot α} {log : List (α × ℕ)} {window window' : List α}

theorem Retains.nil : Retains width floor [] window := fun _ _ => List.nil_subperm

/-- A window may be replaced by one that keeps what is recent from `now` on. -/
theorem Retains.replace (retains : Retains width floor log window) (le : floor ≤ (now : WithBot α))
    (kept : ∀ later, now ≤ later → (window.filter (recent width later)).Subperm window') :
    Retains width now log window' := by
  intro later after
  have step := (retains later (le.trans after)).filter (recent width later)
  rw [List.filter_filter] at step
  simp only [Bool.and_self] at step
  exact step.trans (kept later (WithBot.coe_le_coe.mp after))

theorem Retains.extend (retains : Retains width floor log window) (time : α) (weight : ℕ) :
    Retains width floor (log ++ [(time, weight)]) (window ++ List.replicate weight time) := by
  intro later after
  rw [units_append, units_singleton, List.filter_append]
  exact (retains later after).append List.filter_sublist.subperm

theorem Retains.sumWhere_le (retains : Retains width now log window) :
    sumWhere (recent width now) log ≤ window.length := by
  rw [← length_filter_units]
  exact (retains now (le_refl _)).length_le

end Retains

/-- A log in time order, each of whose events fitted the budget with what was
    recent when it was admitted. -/
inductive Admitted (width : α) (budget : ℕ) : List (α × ℕ) → Prop where
  | nil : Admitted width budget []
  | snoc {log : List (α × ℕ)} {now : α} {weight : ℕ} : Admitted width budget log →
      (∀ event ∈ log, event.1 ≤ now) → sumWhere (recent width now) log + weight ≤ budget →
      Admitted width budget (log ++ [(now, weight)])

/-- No closed interval of the window's width holds more than the budget. -/
theorem Admitted.intervalSum_le {width : α} {budget : ℕ} {log : List (α × ℕ)}
    (admitted : Admitted width budget log) (start : α) :
    sumWhere (fun time => decide (start ≤ time ∧ time ≤ start + width)) log ≤ budget := by
  induction admitted with
  | nil => exact Nat.zero_le _
  | @snoc log now weight _ ordered fits ih =>
      rw [sumWhere_append, sumWhere_singleton]
      split
      · rename_i inside
        obtain ⟨-, upper⟩ := of_decide_eq_true inside
        -- an earlier event of the interval is still recent at its last event
        have lately : sumWhere (fun time => decide (start ≤ time ∧ time ≤ start + width)) log ≤
            sumWhere (recent width now) log := by
          apply sumWhere_le_of_imp
          intro event _ within
          obtain ⟨lower, -⟩ := of_decide_eq_true within
          simp only [recent, decide_eq_true_eq]
          exact upper.trans (add_le_add_left lower width)
        omega
      · simpa only [Nat.add_zero] using ih

/-- A log whose events, in whatever order, each fitted the budget together with what was
    recent by then, of a base that had been there before or of the log itself. -/
inductive Fitted (width : α) (budget : ℕ) (base : List (α × ℕ)) : List (α × ℕ) → Prop where
  | nil : Fitted width budget base []
  | snoc {log : List (α × ℕ)} {now : α} {weight : ℕ} : Fitted width budget base log →
      sumWhere (recent width now) (base ++ log) + weight ≤ budget →
      Fitted width budget base (log ++ [(now, weight)])

/-- The base takes its share of every interval that the log has an event in. -/
theorem Fitted.intervalSum_le {width : α} {budget : ℕ} {base log : List (α × ℕ)}
    (fitted : Fitted width budget base log) (start : α)
    (inside : ∃ event ∈ log, start ≤ event.1 ∧ event.1 ≤ start + width) :
    sumWhere (fun time => decide (start ≤ time ∧ time ≤ start + width)) (base ++ log) ≤ budget := by
  induction fitted with
  | nil =>
      obtain ⟨_, member, -⟩ := inside
      cases member
  | @snoc log now weight _ fits ih =>
      rw [← List.append_assoc, sumWhere_append, sumWhere_singleton]
      split
      · rename_i last
        obtain ⟨-, upper⟩ := of_decide_eq_true last
        -- whatever lies in the interval is recent at its last event
        have lately : sumWhere (fun time => decide (start ≤ time ∧ time ≤ start + width)) (base ++ log) ≤
            sumWhere (recent width now) (base ++ log) := by
          apply sumWhere_le_of_imp
          intro event _ within
          obtain ⟨lower, -⟩ := of_decide_eq_true within
          simp only [recent, decide_eq_true_eq]
          exact upper.trans (add_le_add_left lower width)
        omega
      · rename_i outside
        obtain ⟨event, member, within⟩ := inside
        rcases List.mem_append.mp member with before | last
        · exact ih ⟨event, before, within⟩
        · rw [List.mem_singleton.mp last] at within
          exact absurd (decide_eq_true within) outside

end SlidingWindow
