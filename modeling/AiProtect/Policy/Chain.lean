import AiProtect.Policy.Threshold
import Mathlib.Data.List.Forall2

/-! # Chains of policies and the budget of blocked actions

`evaluate_all` asks the policies in order and stops at the first block. Each
policy records an admission as it is asked, before the policies after it have
decided, so a late block leaves the earlier records in place. The first theorem of
this module says exactly when a blocked action has cost nothing anywhere, the second
that policies appended to a chain never let more through.
-/

universe u

namespace AiProtect

open SlidingWindow

/-- A policy as the chain sees it: a decision, and the state it leaves behind, at
    one reading of the clock. -/
class Policy (π : Type u) where
  evaluate : π → Action → PolicyContext → Int → Decision × π

instance : Policy ThresholdPolicy := ⟨ThresholdPolicy.evaluate⟩

/-- `evaluate_all`. Each policy stands with the reading its clock gives if it is asked. -/
def evaluateAll {π : Type u} [Policy π] (action : Action) (ctx : PolicyContext) :
    List (π × Int) → Decision × List π
  | [] => (.allow, [])
  | (policy, now) :: rest =>
      match Policy.evaluate policy action ctx now with
      | (.block reason, next) => (.block reason, next :: rest.map Prod.fst)
      | (.allow, next) => ((evaluateAll action ctx rest).1, next :: (evaluateAll action ctx rest).2)

namespace ThresholdPolicy

/-- Whether `evaluate` will block, read off the state before the call. -/
def refuses (action : Action) (ctx : PolicyContext) (entry : ThresholdPolicy × Int) : Bool :=
  entry.1.config.covers action.operation && !entry.1.admits action ctx entry.2

theorem evaluate_isBlock (action : Action) (ctx : PolicyContext) (entry : ThresholdPolicy × Int) :
    (entry.1.evaluate action ctx entry.2).1.isBlock = refuses action ctx entry := by
  have allow := entry.1.evaluate_isAllow action ctx entry.2
  rw [Decision.isAllow_eq_not_isBlock] at allow
  rw [refuses, ← Bool.not_not (Decision.isBlock _), allow, Bool.not_or, Bool.not_not]

/-- The policy tracks the caller already, or has room for one more identity. -/
def HasRoom (policy : ThresholdPolicy) (ctx : PolicyContext) : Prop :=
  (policy.history.get (policy.config.historyKey ctx)).isSome = true ∨
    policy.history.len < policy.config.maxTrackedIdentities

instance (policy : ThresholdPolicy) (ctx : PolicyContext) : Decidable (policy.HasRoom ctx) :=
  inferInstanceAs (Decidable (_ ∨ _))

/-- From the reading `now` on, the timestamps inside the window are the same, for
    every key, and so is the pending buffer. -/
structure SameBudget (before after : ThresholdPolicy) (now : Int) : Prop where
  windows : ∀ key later, now ≤ later →
    ((after.history.window key).filter (recent (before.config.window : Int) later) : Multiset Int) =
      (before.history.window key).filter (recent (before.config.window : Int) later)
  pending : after.state = before.state

theorem SameBudget.refl (policy : ThresholdPolicy) (now : Int) : SameBudget policy policy now :=
  ⟨fun _ _ _ => rfl, rfl⟩

theorem makeRoom_of_hasRoom {policy : ThresholdPolicy} {ctx : PolicyContext} (room : policy.HasRoom ctx) :
    policy.makeRoom (policy.config.historyKey ctx) = policy.history := by
  simp only [makeRoom, History.containsKey_eq]
  split
  · rfl
  · rename_i untracked
    rcases room with tracked | below
    · exact absurd tracked untracked
    · exact History.evictStalestUntil_of_le (by omega)

theorem filter_measured (policy : ThresholdPolicy) (key : Identity) {now later : Int} (le : now ≤ later) :
    (policy.measured key now).filter (recent (policy.config.window : Int) later) =
      (policy.history.window key).filter (recent (policy.config.window : Int) later) := by
  rw [measured, History.stale_eq_not_recent, ← filter_recent_recent le, filter_dropWhile,
    filter_recent_recent le]

theorem sameBudget_prepare {policy : ThresholdPolicy} {ctx : PolicyContext} (room : policy.HasRoom ctx)
    (now : Int) : SameBudget policy
      { policy with history := policy.prepare (policy.config.historyKey ctx) now } now where
  windows := by
    intro key later le
    rw [policy.window_prepare now (congrArg History.byIdentity (makeRoom_of_hasRoom room))]
    split
    · rename_i same
      rw [same, policy.filter_measured _ le]
    · rfl
  pending := rfl

/-- An admitted action leaves the budget alone only if it had no units. -/
theorem sameBudget_admitted_iff {policy : ThresholdPolicy} {ctx : PolicyContext} (room : policy.HasRoom ctx)
    (now : Int) (count : Nat) : SameBudget policy
      { policy with
        history := (policy.prepare (policy.config.historyKey ctx) now).recordAdmitted
          (policy.config.historyKey ctx) now count
        state := policy.enqueue (policy.config.historyKey ctx) now count } now ↔ count = 0 := by
  have windows := fun key => History.window_recordAdmitted
    (policy.get_prepare_isSome (policy.config.historyKey ctx) now) key now count
  constructor
  · intro same
    have sizes := congrArg Multiset.card
      (same.windows (policy.config.historyKey ctx) now (le_refl now))
    have fresh : recent (policy.config.window : Int) now now = true := by
      simp only [recent, decide_eq_true_eq]
      omega
    simp only [windows, if_true, window_prepare_self, List.filter_append,
      policy.filter_measured _ (le_refl now), List.filter_replicate, fresh, Multiset.coe_card,
      List.length_append, List.length_replicate] at sizes
    omega
  · rintro rfl
    refine ⟨?_, ?_⟩
    · intro key later le
      rw [windows, List.replicate_zero, List.append_nil, window_prepare_self]
      split
      · rename_i same
        rw [same, policy.filter_measured _ le]
      · exact (sameBudget_prepare room now).windows key later le
    · simp only [enqueue, List.replicate_zero, List.append_nil]
      cases policy.state <;> rfl

/-- A decision that lets the action through leaves the budget alone exactly if the
    policy does not see the action or the action has no units. -/
theorem sameBudget_allowed_iff {policy : ThresholdPolicy} {action : Action} {ctx : PolicyContext}
    (room : policy.HasRoom ctx) (now : Int) (allowed : refuses action ctx (policy, now) = false) :
    SameBudget policy (policy.evaluate action ctx now).2 now ↔
      policy.config.covers action.operation = false ∨ action.blastRadius = 0 := by
  rw [← evaluate_isBlock] at allowed
  cases policy.evaluate_outcome action ctx now with
  | bypassed outside result =>
      rw [result]
      exact iff_of_true (.refl _ _) (.inl outside)
  | oversized _ _ result | overBudget _ _ _ result =>
      simp only [result, Decision.isBlock_block, Bool.true_eq_false] at allowed
  | admitted covered _ _ result =>
      simp only [result, covered, Bool.true_eq_false, false_or]
      exact sameBudget_admitted_iff room now action.blastRadius

theorem sameBudget_refused {policy : ThresholdPolicy} {action : Action} {ctx : PolicyContext}
    (room : policy.HasRoom ctx) (now : Int) (refused : refuses action ctx (policy, now) = true) :
    SameBudget policy (policy.evaluate action ctx now).2 now := by
  rw [← evaluate_isBlock] at refused
  cases policy.evaluate_outcome action ctx now with
  | bypassed _ result | admitted _ _ _ result =>
      simp only [result, Decision.isBlock_allow, Bool.false_eq_true] at refused
  | oversized _ _ result =>
      rw [result]
      exact .refl _ _
  | overBudget _ _ _ result =>
      rw [result]
      exact sameBudget_prepare room now

/-- No policy ahead of the first one that refuses the action sees it, or the action
    has no units. -/
def NothingSpent (action : Action) (ctx : PolicyContext) (policies : List (ThresholdPolicy × Int)) : Prop :=
  (∃ entry ∈ policies, refuses action ctx entry = true) → action.blastRadius = 0 ∨
    ∀ entry ∈ policies.takeWhile (fun entry => !refuses action ctx entry),
      entry.1.config.covers action.operation = false

instance (action : Action) (ctx : PolicyContext) (policies : List (ThresholdPolicy × Int)) :
    Decidable (NothingSpent action ctx policies) :=
  inferInstanceAs (Decidable (_ → _))

theorem evaluateAll_cons (action : Action) (ctx : PolicyContext) (entry : ThresholdPolicy × Int)
    (rest : List (ThresholdPolicy × Int)) :
    ((evaluateAll action ctx (entry :: rest)).1.isBlock =
        (refuses action ctx entry || (evaluateAll action ctx rest).1.isBlock)) ∧
      (evaluateAll action ctx (entry :: rest)).2 = (entry.1.evaluate action ctx entry.2).2 ::
        (if refuses action ctx entry = true then rest.map Prod.fst else (evaluateAll action ctx rest).2) := by
  obtain ⟨policy, now⟩ := entry
  rw [← evaluate_isBlock]
  simp only [evaluateAll, Policy.evaluate]
  rcases result : policy.evaluate action ctx now with ⟨decision, next⟩
  cases decision with
  | allow => simp only [Decision.isBlock_allow, Bool.false_or, Bool.false_eq_true, if_false, and_self]
  | block reason => simp only [Decision.isBlock_block, Bool.true_or, if_true, and_self]

theorem evaluateAll_isBlock (action : Action) (ctx : PolicyContext) (policies : List (ThresholdPolicy × Int)) :
    (evaluateAll action ctx policies).1.isBlock = true ↔ ∃ entry ∈ policies, refuses action ctx entry = true := by
  induction policies with
  | nil => simp only [evaluateAll, Decision.isBlock_allow, Bool.false_eq_true, List.not_mem_nil, false_and,
      exists_false]
  | cons entry rest ih =>
      rw [(evaluateAll_cons action ctx entry rest).1, Bool.or_eq_true, ih]
      simp only [List.mem_cons, exists_eq_or_imp]

/-- A blocked action has consumed no budget in any policy of the chain, if and only if
    it had no units or no policy ahead of the one that blocked it sees it. -/
theorem blocked_spends_nothing_iff (action : Action) (ctx : PolicyContext)
    (policies : List (ThresholdPolicy × Int)) (room : ∀ entry ∈ policies, entry.1.HasRoom ctx) :
    ((evaluateAll action ctx policies).1.isBlock = true →
        List.Forall₂ (fun before after => SameBudget before.1 after before.2) policies
          (evaluateAll action ctx policies).2) ↔ NothingSpent action ctx policies := by
  rw [evaluateAll_isBlock]
  induction policies with
  | nil => exact iff_of_true (fun _ => .nil) (fun blocked => by simp at blocked)
  | cons entry rest ih =>
      obtain ⟨here, others⟩ := List.forall_mem_cons.mp room
      have tail := ih others
      rw [(evaluateAll_cons action ctx entry rest).2, List.forall₂_cons]
      cases refused : refuses action ctx entry with
      | true =>
          have unasked : List.Forall₂ (fun before after => SameBudget before.1 after before.2) rest
              (rest.map Prod.fst) := by
            rw [List.forall₂_map_right_iff]
            exact List.forall₂_same.mpr fun entry _ => .refl _ _
          refine iff_of_true (fun _ => ⟨sameBudget_refused here entry.2 refused, ?_⟩) (fun _ => .inr ?_)
          · simpa only [if_true] using unasked
          · intro ahead member
            simp only [List.takeWhile_cons, refused, Bool.not_true, Bool.false_eq_true, if_false,
              List.not_mem_nil] at member
      | false =>
          have mine := sameBudget_allowed_iff here entry.2 refused
          simp only [NothingSpent, List.mem_cons, exists_eq_or_imp, refused, Bool.false_eq_true, false_or,
            if_false, List.takeWhile_cons, Bool.not_false, if_true, forall_eq_or_imp] at tail ⊢
          rw [mine]
          constructor
          · intro kept blocked
            rcases (kept blocked).1 with outside | none
            · exact (tail.mp (fun again => (kept again).2) blocked).imp_right (fun ahead => ⟨outside, ahead⟩)
            · exact .inl none
          · intro unspent blocked
            refine ⟨?_, tail.mpr (fun again => (unspent again).imp_right And.right) blocked⟩
            exact (unspent blocked).symm.imp_left And.left

/-- A policy that sees deletions only, ahead of one that admits nothing. -/
def filteredChain : List (ThresholdPolicy × Int) :=
  [(⟨{ minuteConfig with operations := some [.delete] }, .empty, none⟩, 0),
    (⟨{ minuteConfig with maxPerWindow := 0, scope := .global }, .empty, none⟩, 1)]

theorem blocked_spends_nothing_filtered :
    (evaluateAll lockAction agent filteredChain).1.isBlock = true ∧
      List.Forall₂ (fun before after => SameBudget before.1 after before.2) filteredChain
        (evaluateAll lockAction agent filteredChain).2 :=
  ⟨by decide +kernel, (blocked_spends_nothing_iff lockAction agent filteredChain (by decide +kernel)).mpr
    (by decide +kernel) (by decide +kernel)⟩

/-- A per-identity policy ahead of a global one that admits nothing. -/
def stackedChain : List (ThresholdPolicy × Int) :=
  [(⟨minuteConfig, .empty, none⟩, 0),
    (⟨{ minuteConfig with maxPerWindow := 0, scope := .global }, .empty, none⟩, 1)]

/-- The second policy blocks the action, and the first has already counted it. -/
theorem blocked_spends_in_stacked :
    (∀ entry ∈ stackedChain, entry.1.HasRoom agent) ∧
      (evaluateAll lockAction agent stackedChain).1.isBlock = true ∧
      ¬ List.Forall₂ (fun before after => SameBudget before.1 after before.2) stackedChain
        (evaluateAll lockAction agent stackedChain).2 := by
  refine ⟨by decide +kernel, by decide +kernel, ?_⟩
  intro same
  obtain ⟨first, -⟩ := List.forall₂_cons.mp same
  have windows := first.windows agent.identity 0 (le_refl 0)
  revert windows
  decide +kernel

end ThresholdPolicy

section Appending

variable {π : Type u} [Policy π]

/-- The policies after the first ones are asked only if all of the first ones allow. -/
theorem evaluateAll_append (action : Action) (ctx : PolicyContext) (policies further : List (π × Int)) :
    evaluateAll action ctx (policies ++ further) =
      match evaluateAll action ctx policies with
      | (.allow, states) =>
          ((evaluateAll action ctx further).1, states ++ (evaluateAll action ctx further).2)
      | (.block reason, states) => (.block reason, states ++ further.map Prod.fst) := by
  induction policies with
  | nil => rfl
  | cons entry rest ih =>
      obtain ⟨policy, now⟩ := entry
      rw [List.cons_append, evaluateAll, evaluateAll]
      rcases Policy.evaluate policy action ctx now with ⟨decision, next⟩
      cases decision with
      | block reason => simp only [List.map_append, List.cons_append]
      | allow =>
          simp only [ih]
          rcases evaluateAll action ctx rest with ⟨decision, states⟩
          cases decision <;> rfl

theorem length_evaluateAll (action : Action) (ctx : PolicyContext) (policies : List (π × Int)) :
    (evaluateAll action ctx policies).2.length = policies.length := by
  induction policies with
  | nil => rfl
  | cons entry rest ih =>
      obtain ⟨policy, now⟩ := entry
      rw [evaluateAll]
      rcases Policy.evaluate policy action ctx now with ⟨decision, next⟩
      cases decision with
      | block reason => simp only [List.length_cons, List.length_map]
      | allow => simp only [List.length_cons, ih]

/-- One action put to the chain, with the reading the clock gives to each place in it. -/
structure ChainStep where
  action : Action
  ctx : PolicyContext
  clock : Nat → Int

namespace ChainStep

def run (step : ChainStep) (policies : List π) : Decision × List π :=
  evaluateAll step.action step.ctx (policies.mapIdx fun place policy => (policy, step.clock place))

/-- The decisions of a sequence of actions, each with the states it leaves. -/
def trace (policies : List π) : List ChainStep → List (Decision × List π)
  | [] => []
  | step :: steps => step.run policies :: trace (step.run policies).2 steps

theorem length_run (step : ChainStep) (policies : List π) :
    (step.run policies).2.length = policies.length := by
  rw [run, length_evaluateAll, List.length_mapIdx]

/-- One action leaves the first policies as they would be alone, and what it is allowed
    by all of them it is allowed by the first. -/
theorem run_append (step : ChainStep) (policies further : List π) :
    ∃ others, (step.run (policies ++ further)).2 = (step.run policies).2 ++ others ∧
      ((step.run (policies ++ further)).1 = .allow → (step.run policies).1 = .allow) := by
  simp only [run, List.mapIdx_append, evaluateAll_append]
  rcases evaluateAll step.action step.ctx (policies.mapIdx fun place policy => (policy, step.clock place))
    with ⟨decision, states⟩
  cases decision with
  | allow => exact ⟨_, rfl, fun _ => rfl⟩
  | block reason => exact ⟨_, rfl, fun allowed => by cases allowed⟩

/-- Policies appended to a chain never change the states of the first ones, and never
    let an action through that the first ones block. -/
theorem append_never_admits_more (policies further : List π) (steps : List ChainStep) :
    List.Forall₂ (fun alone appended => appended.2.take policies.length = alone.2 ∧
        (appended.1 = Decision.allow → alone.1 = Decision.allow))
      (trace policies steps) (trace (policies ++ further) steps) := by
  induction steps generalizing policies further with
  | nil => exact .nil
  | cons step steps ih =>
      obtain ⟨others, states, allowed⟩ := step.run_append policies further
      refine .cons ⟨?_, allowed⟩ ?_
      · rw [states, ← step.length_run policies, List.take_left]
      · have rest := ih (step.run policies).2 others
        rw [length_run] at rest
        rw [states]
        exact rest

end ChainStep

end Appending

end AiProtect
