import AiProtect.Lib.Runs
import AiProtect.Policy.Threshold

/-! # `evaluate` against a limiter that forgets nothing

The reference limiter keeps every admitted action and sums the log again at each
decision. `evaluate` keeps one timestamp per unit of blast radius and drops the
expired front of a window when it looks at it. As long as no identity has to be
evicted the two give the same decisions, texts included.
-/

namespace AiProtect

open SlidingWindow Runs

structure Call where
  action : Action
  ctx : PolicyContext
  now : Int
  deriving DecidableEq, Repr

def ThresholdConfig.callKey (config : ThresholdConfig) (call : Call) : Identity :=
  config.historyKey call.ctx

namespace Reference

structure Entry where
  key : Identity
  time : Int
  radius : Nat
  deriving DecidableEq, Repr

/-- The blast radius logged under `key` by actions at most the window old at `now`. -/
def windowTotal (config : ThresholdConfig) (log : List Entry) (key : Identity) (now : Int) : Nat :=
  ((log.filter fun entry => entry.key = key ∧ now - entry.time ≤ config.window).map Entry.radius).sum

def Allows (config : ThresholdConfig) (log : List Entry) (call : Call) : Prop :=
  config.covers call.action.operation = false ∨
    (call.action.blastRadius ≤ config.maxPerRequest ∧
      windowTotal config log (config.callKey call) call.now + call.action.blastRadius ≤ config.maxPerWindow)

instance (config : ThresholdConfig) (log : List Entry) (call : Call) : Decidable (Allows config log call) :=
  inferInstanceAs (Decidable (_ ∨ _))

def decision (config : ThresholdConfig) (log : List Entry) (call : Call) : Decision :=
  if Allows config log call then .allow
  else if config.maxPerRequest < call.action.blastRadius then .block (config.requestReason call.action)
  else .block (config.windowReason (windowTotal config log (config.callKey call) call.now))

/-- Admitted actions are logged; actions outside the operations filter are not admitted but let through. -/
def record (config : ThresholdConfig) (log : List Entry) (call : Call) : List Entry :=
  if config.covers call.action.operation = true ∧ Allows config log call then
    log ++ [⟨config.callKey call, call.now, call.action.blastRadius⟩]
  else log

def decisions (config : ThresholdConfig) (log : List Entry) : List Call → List Decision
  | [] => []
  | call :: calls => decision config log call :: decisions config (record config log call) calls

/-- The times and radii logged under one key. -/
def under (log : List Entry) (key : Identity) : List (Int × Nat) :=
  (log.filter fun entry => entry.key = key).map fun entry => (entry.time, entry.radius)

theorem windowTotal_eq (config : ThresholdConfig) (log : List Entry) (key : Identity) (now : Int) :
    windowTotal config log key now = sumWhere (recent (config.window : Int) now) (under log key) := by
  induction log with
  | nil => rfl
  | cons entry log ih =>
      have split : entry :: log = [entry] ++ log := rfl
      have append : ∀ a b : List Entry, windowTotal config (a ++ b) key now =
          windowTotal config a key now + windowTotal config b key now := by
        intro a b
        simp only [windowTotal, List.filter_append, List.map_append, List.sum_append]
      have underAppend : ∀ a b : List Entry, under (a ++ b) key = under a key ++ under b key := by
        intro a b
        simp only [under, List.filter_append, List.map_append]
      rw [split, append, underAppend, sumWhere_append, ih]
      congr 1
      by_cases same : entry.key = key
      · have time : decide (now - entry.time ≤ config.window) = recent (config.window : Int) now entry.time := by
          simp only [recent, decide_eq_decide]
          omega
        cases lately : recent (config.window : Int) now entry.time <;>
          simp_all [windowTotal, under, sumWhere]
      · simp [windowTotal, under, sumWhere, same]

theorem under_record (config : ThresholdConfig) (log : List Entry) (call : Call) (key : Identity) :
    under (record config log call) key =
      if key = config.callKey call ∧ config.covers call.action.operation = true ∧ Allows config log call then
        under log key ++ [(call.now, call.action.blastRadius)]
      else under log key := by
  simp only [record]
  by_cases admitted : config.covers call.action.operation = true ∧ Allows config log call
  · by_cases same : key = config.callKey call
    · simp [admitted, same, under, List.filter_append]
    · simp [admitted, same, under, List.filter_append, Ne.symm same]
  · simp [admitted]

end Reference

namespace ThresholdPolicy

/-- The policy after one call. -/
def afterCall (policy : ThresholdPolicy) (call : Call) : ThresholdPolicy :=
  (policy.evaluate call.action call.ctx call.now).2

def decisions (policy : ThresholdPolicy) : List Call → List Decision
  | [] => []
  | call :: calls => (policy.evaluate call.action call.ctx call.now).1 :: (policy.afterCall call).decisions calls

/-- The sum the window check forms does not overflow, wherever it is formed. -/
def FitsUsize (policy : ThresholdPolicy) (call : Call) : Prop :=
  policy.config.covers call.action.operation = true → call.action.blastRadius ≤ policy.config.maxPerRequest →
    (policy.measured (policy.config.callKey call) call.now).length + call.action.blastRadius < 2 ^ 64

instance (policy : ThresholdPolicy) (call : Call) : Decidable (policy.FitsUsize call) :=
  inferInstanceAs (Decidable (_ → _ → _))

/-- The windows hold what the log says is recent, in order. -/
structure Tracks (config : ThresholdConfig) (keys : Finset Identity) (policy : ThresholdPolicy)
    (log : List Reference.Entry) (last : Int) : Prop where
  sameConfig : policy.config = config
  tracked : ∀ id, (policy.history.get id).isSome = true → id ∈ keys
  sorted : ∀ id, (policy.history.window id).Pairwise (· ≤ ·)
  past : ∀ id, ∀ t ∈ policy.history.window id, t ≤ last
  agrees : ∀ id now, last ≤ now → (policy.history.window id).filter (recent (config.window : Int) now) =
    (units (Reference.under log id)).filter (recent (config.window : Int) now)

namespace Tracks

variable {config : ThresholdConfig} {keys : Finset Identity} {policy : ThresholdPolicy}
  {log : List Reference.Entry} {last : Int}

theorem later (tracks : Tracks config keys policy log last) {now : Int} (le : last ≤ now) :
    Tracks config keys policy log now where
  sameConfig := tracks.sameConfig
  tracked := tracks.tracked
  sorted := tracks.sorted
  past := fun id t member => (tracks.past id t member).trans le
  agrees := fun id later after => tracks.agrees id later (le.trans after)

theorem measured_eq (tracks : Tracks config keys policy log last) (key : Identity) (now : Int) :
    policy.measured key now = (policy.history.window key).filter (recent (config.window : Int) now) := by
  rw [measured_of_sorted (tracks.sorted key), tracks.sameConfig]

theorem length_measured (tracks : Tracks config keys policy log last) (key : Identity) {now : Int}
    (le : last ≤ now) : (policy.measured key now).length = Reference.windowTotal config log key now := by
  rw [tracks.measured_eq, tracks.agrees key now le, length_filter_units, Reference.windowTotal_eq]

/-- The relation is restored when the window of one key is replaced by what was
    measured of it, with the new units at its end. -/
theorem refill (tracks : Tracks config keys policy log last) (key : Identity) {now : Int} (le : last ≤ now)
    (count : Nat) {next : ThresholdPolicy} {nextLog : List Reference.Entry}
    (sameConfig : next.config = config)
    (tracked : ∀ id, (next.history.get id).isSome = true → id ∈ keys)
    (windows : ∀ id, next.history.window id = if id = key then
      policy.measured key now ++ List.replicate count now else policy.history.window id)
    (logs : ∀ id, units (Reference.under nextLog id) = if id = key then
      units (Reference.under log key) ++ List.replicate count now else units (Reference.under log id)) :
    Tracks config keys next nextLog now := by
  have measured := tracks.measured_eq key now
  have past : ∀ id, ∀ t ∈ policy.history.window id, t ≤ now :=
    fun id t member => (tracks.past id t member).trans le
  have pastMeasured : ∀ t ∈ policy.measured key now, t ≤ now := by
    rw [measured]
    exact fun t member => past key t (List.mem_of_mem_filter member)
  refine ⟨sameConfig, tracked, ?_, ?_, ?_⟩
  · intro id
    rw [windows]
    split
    · refine sorted_admitted ?_ pastMeasured count
      rw [measured]
      exact (tracks.sorted key).filter _
    · exact tracks.sorted id
  · intro id
    rw [windows]
    split
    · exact past_admitted pastMeasured count
    · exact past id
  · intro id later after
    rw [windows, logs]
    split
    · rw [List.filter_append, List.filter_append, measured, filter_recent_recent after,
        tracks.agrees key later (le.trans after)]
    · exact tracks.agrees id later (le.trans after)

/-- Both limiters let the same calls through. -/
theorem allows_iff (tracks : Tracks config keys policy log last) {call : Call} (le : last ≤ call.now)
    (fits : policy.FitsUsize call) :
    Reference.Allows config log call ↔ (policy.evaluate call.action call.ctx call.now).1.isAllow = true := by
  have total := tracks.length_measured (config.historyKey call.ctx) le
  obtain rfl := tracks.sameConfig
  rw [evaluate_isAllow, Reference.Allows]
  cases covered : policy.config.covers call.action.operation with
  | false => exact iff_of_true (.inl rfl) rfl
  | true =>
      by_cases small : call.action.blastRadius ≤ policy.config.maxPerRequest
      · have sum := addUsize_of_fits (fits covered small)
        simp only [ThresholdConfig.callKey, total] at sum
        simp only [admits, small, sum, total, ThresholdConfig.callKey, Bool.true_eq_false, false_or, true_and,
          decide_true, Bool.true_and, Bool.not_true, Bool.false_or, decide_eq_true_eq]
      · simp only [admits, small, Bool.true_eq_false, false_or, false_and, decide_false, Bool.false_and,
          Bool.not_true, Bool.or_self, Bool.false_eq_true]

theorem decision_eq (tracks : Tracks config keys policy log last) {call : Call} (le : last ≤ call.now)
    (fits : policy.FitsUsize call) :
    (policy.evaluate call.action call.ctx call.now).1 = Reference.decision config log call := by
  have total := tracks.length_measured (config.historyKey call.ctx) le
  have allows := tracks.allows_iff le fits
  obtain rfl := tracks.sameConfig
  cases policy.evaluate_outcome call.action call.ctx call.now with
  | bypassed _ result | admitted _ _ _ result =>
      rw [result] at allows ⊢
      exact (if_pos (allows.mpr rfl)).symm
  | oversized _ large result =>
      rw [result, Decision.isAllow_block, Bool.false_eq_true, iff_false] at allows
      rw [result, Reference.decision, if_neg allows, if_pos large]
  | overBudget _ small _ result =>
      rw [result, Decision.isAllow_block, Bool.false_eq_true, iff_false] at allows
      rw [result, Reference.decision, if_neg allows, if_neg (Nat.not_lt.mpr small), ThresholdConfig.callKey, total]

/-- The relation holds again after a call. -/
theorem afterCall (tracks : Tracks config keys policy log last) {call : Call} (le : last ≤ call.now)
    (member : config.callKey call ∈ keys) (few : keys.card ≤ config.maxTrackedIdentities)
    (fits : policy.FitsUsize call) :
    Tracks config keys (policy.afterCall call) (Reference.record config log call) call.now := by
  have allows := tracks.allows_iff le fits
  obtain rfl := tracks.sameConfig
  rw [evaluate_isAllow, Bool.or_eq_true, Bool.not_eq_true'] at allows
  cases read : policy.measures call.action with
  | false =>
      have unlogged : Reference.record policy.config log call = log := by
        refine if_neg fun both => ?_
        rcases both.2 with outside | ⟨small, -⟩
        · rw [both.1] at outside
          cases outside
        · rw [measures, both.1, decide_eq_true small] at read
          cases read
      rw [unlogged, ThresholdPolicy.afterCall, evaluate_unmeasured read]
      exact tracks.later le
  | true =>
      have covered : policy.config.covers call.action.operation = true := (Bool.and_eq_true_iff.mp read).1
      have room := makeRoom_of_few tracks.tracked member few
      rw [covered, Bool.true_eq_false, false_or] at allows
      refine tracks.refill (policy.config.callKey call) le (policy.recorded call.action call.ctx call.now)
        (evaluate_config ..) ?_ ?_ ?_
      · intro id found
        rcases tracked_evaluate found with rfl | before
        · exact member
        · exact tracks.tracked id before
      · intro id
        rw [ThresholdPolicy.afterCall, window_evaluate call.now (fun _ => congrArg History.byIdentity room) id]
        by_cases same : id = policy.config.callKey call
        · rw [if_pos ⟨read, same⟩, if_pos same]
          rfl
        · rw [if_neg (fun both => same both.2), if_neg same]
      · intro id
        rw [Reference.under_record]
        by_cases same : id = policy.config.callKey call
        · rw [if_pos same, ← same, recorded, covered, Bool.true_and]
          by_cases granted : policy.admits call.action call.ctx call.now = true
          · rw [if_pos ⟨rfl, rfl, allows.mpr granted⟩, if_pos granted, units_append, units_singleton]
          · rw [if_neg (fun all => granted (allows.mp all.2.2)), if_neg granted, List.replicate_zero, List.append_nil]
        · rw [if_neg (fun all => same all.1), if_neg same]

/-- A whole run of calls from related states. -/
theorem decisions_eq {calls : List Call} (tracks : Tracks config keys policy log last)
    (after : ∀ call ∈ calls, last ≤ call.now) (ordered : (calls.map Call.now).Pairwise (· ≤ ·))
    (members : ∀ call ∈ calls, config.callKey call ∈ keys) (few : keys.card ≤ config.maxTrackedIdentities)
    (fits : EachStep ThresholdPolicy.afterCall FitsUsize policy calls) :
    policy.decisions calls = Reference.decisions config log calls := by
  induction calls generalizing policy log last with
  | nil => rfl
  | cons call calls ih =>
      obtain ⟨here, rest⟩ := eachStep_cons.mp fits
      obtain ⟨first, sorted⟩ := List.pairwise_cons.mp ordered
      have now := after call List.mem_cons_self
      have next := tracks.afterCall now (members call List.mem_cons_self) few here
      simp only [ThresholdPolicy.decisions, Reference.decisions, tracks.decision_eq now here]
      congr 1
      exact ih next (fun later member => first _ (List.mem_map_of_mem member)) sorted
        (fun later member => members later (List.mem_cons_of_mem _ member)) rest

end Tracks

end ThresholdPolicy

namespace Reference

/-- The calls of a flagged run that are kept. -/
def kept (flagged : List (Call × Bool)) : List Call := (flagged.filter Prod.snd).map Prod.fst

/-- The decisions of the kept calls of one key, read off the decisions of the whole run. -/
def keptDecisions (config : ThresholdConfig) (key : Identity) (flagged : List (Call × Bool))
    (decisions : List Decision) : List Decision :=
  ((flagged.zip decisions).filter fun entry => entry.1.2 && decide (config.callKey entry.1.1 = key)).map Prod.snd

/-- The decisions of the calls of one key. -/
def keyDecisions (config : ThresholdConfig) (key : Identity) (calls : List Call)
    (decisions : List Decision) : List Decision :=
  ((calls.zip decisions).filter fun entry => decide (config.callKey entry.1 = key)).map Prod.snd

/-- Every call that is not kept is one of another key, one outside the operations
    filter, or one that was blocked. -/
def Droppable (config : ThresholdConfig) (key : Identity) (flagged : List (Call × Bool))
    (decisions : List Decision) : Prop :=
  ∀ entry ∈ flagged.zip decisions, entry.1.2 = false → config.callKey entry.1.1 ≠ key ∨
    config.covers entry.1.1.action.operation = false ∨ entry.2.isBlock = true

instance (config : ThresholdConfig) (key : Identity) (flagged : List (Call × Bool))
    (decisions : List Decision) : Decidable (Droppable config key flagged decisions) :=
  inferInstanceAs (Decidable (∀ entry ∈ flagged.zip decisions, _))

theorem decision_congr {config : ThresholdConfig} {log log' : List Entry} (call : Call)
    (same : under log (config.callKey call) = under log' (config.callKey call)) :
    (Allows config log call ↔ Allows config log' call) ∧
      decision config log call = decision config log' call := by
  have total : windowTotal config log (config.callKey call) call.now =
      windowTotal config log' (config.callKey call) call.now := by
    rw [windowTotal_eq, windowTotal_eq, same]
  have allows : Allows config log call ↔ Allows config log' call := by
    simp only [Allows, total]
  refine ⟨allows, ?_⟩
  simp only [decision, allows, total]

theorem isBlock_decision {config : ThresholdConfig} {log : List Entry} {call : Call} :
    (decision config log call).isBlock = true ↔ ¬ Allows config log call := by
  simp only [decision]
  split
  · rename_i allowed
    simp only [Decision.isBlock_allow, Bool.false_eq_true, allowed, not_true]
  · rename_i refused
    split <;> simp only [Decision.isBlock_block, refused, not_false_iff]

/-- Dropping such calls leaves the decisions of the other calls of the key alone. -/
theorem keptDecisions_eq {config : ThresholdConfig} {key : Identity} {flagged : List (Call × Bool)}
    {log log' : List Entry} (same : under log key = under log' key)
    (droppable : Droppable config key flagged (decisions config log (flagged.map Prod.fst))) :
    keptDecisions config key flagged (decisions config log (flagged.map Prod.fst)) =
      keyDecisions config key (kept flagged) (decisions config log' (kept flagged)) := by
  induction flagged generalizing log log' with
  | nil => rfl
  | cons entry flagged ih =>
      obtain ⟨call, keep⟩ := entry
      have rest : Droppable config key flagged
          (decisions config (record config log call) (flagged.map Prod.fst)) :=
        fun entry member => droppable entry (List.mem_cons_of_mem _ member)
      cases keep with
      | false =>
          -- the dropped call has left nothing in the log of this key
          have unlogged : under (record config log call) key = under log' key := by
            rw [under_record, if_neg, same]
            rintro ⟨rfl, covered, allowed⟩
            rcases droppable ((call, false), decision config log call) List.mem_cons_self rfl with
              other | outside | blocked
            · exact other rfl
            · rw [covered] at outside
              cases outside
            · exact isBlock_decision.mp blocked allowed
          exact ih unlogged rest
      | true =>
          have next : under (record config log call) key = under (record config log' call) key := by
            rw [under_record, under_record]
            by_cases mine : key = config.callKey call
            · have allows := (decision_congr call (mine ▸ same)).1
              simp only [mine, allows, true_and]
              rw [mine] at same
              rw [same]
            · simp only [mine, false_and, if_false, same]
          have tail := ih next rest
          simp only [keptDecisions, keyDecisions, kept] at tail
          simp only [keptDecisions, keyDecisions, kept, List.filter_cons_of_pos, List.map_cons, decisions,
            List.zip_cons_cons, Bool.true_and, List.filter_cons]
          by_cases mine : config.callKey call = key
          · have decided := (decision_congr call (mine ▸ same)).2
            simp only [mine, decide_true, if_true, List.map_cons, decided, tail]
          · simp only [mine, decide_false, Bool.false_eq_true, if_false, tail]

end Reference

namespace ThresholdPolicy

/-- The runs the limiter is specified for: the clock does not go back, the keys fit
    the cap on tracked identities, and the window sum does not overflow. -/
structure InScope (config : ThresholdConfig) (calls : List Call) : Prop where
  ordered : (calls.map Call.now).Pairwise (· ≤ ·)
  fewKeys : (calls.map config.callKey).toFinset.card ≤ config.maxTrackedIdentities
  fits : EachStep afterCall FitsUsize ⟨config, .empty, none⟩ calls

theorem InScope.decisions_eq {config : ThresholdConfig} {calls : List Call} (scope : InScope config calls) :
    (⟨config, .empty, none⟩ : ThresholdPolicy).decisions calls = Reference.decisions config [] calls := by
  have members : ∀ call ∈ calls, config.callKey call ∈ (calls.map config.callKey).toFinset := by
    intro call member
    exact List.mem_toFinset.mpr (List.mem_map_of_mem member)
  cases calls with
  | nil => rfl
  | cons call calls =>
      have start : Tracks config ((call :: calls).map config.callKey).toFinset ⟨config, .empty, none⟩ []
          call.now := by
        refine ⟨rfl, ?_, ?_, ?_, ?_⟩
        · intro id found
          rw [History.get_empty] at found
          cases found
        all_goals
          intro id
          simp only [History.window, History.get_empty, Option.getD_none]
        · exact List.Pairwise.nil
        · intro t member
          cases member
        · intro now _
          rfl
      apply start.decisions_eq _ scope.ordered members scope.fewKeys scope.fits
      intro later member
      rcases List.mem_cons.mp member with rfl | member
      · exact le_refl _
      · exact (List.pairwise_cons.mp scope.ordered).1 _ (List.mem_map_of_mem member)

/-- In scope, every decision is the reference limiter's; and dropping calls of other
    keys, calls outside the operations filter and blocked calls changes no decision
    on the calls of a key that are kept. -/
theorem evaluate_exact_window (config : ThresholdConfig) (calls : List Call) (scope : InScope config calls) :
    (⟨config, .empty, none⟩ : ThresholdPolicy).decisions calls = Reference.decisions config [] calls ∧
      ∀ (key : Identity) (flagged : List (Call × Bool)), flagged.map Prod.fst = calls →
        InScope config (Reference.kept flagged) →
        Reference.Droppable config key flagged ((⟨config, .empty, none⟩ : ThresholdPolicy).decisions calls) →
        Reference.keptDecisions config key flagged
            ((⟨config, .empty, none⟩ : ThresholdPolicy).decisions calls) =
          Reference.keyDecisions config key (Reference.kept flagged)
            ((⟨config, .empty, none⟩ : ThresholdPolicy).decisions (Reference.kept flagged)) := by
  refine ⟨scope.decisions_eq, ?_⟩
  rintro key flagged rfl part droppable
  rw [scope.decisions_eq] at droppable ⊢
  rw [part.decisions_eq]
  exact Reference.keptDecisions_eq rfl droppable

/-- A call of another caller between two calls of one caller. -/
def twoCallers : List (Call × Bool) :=
  [(⟨lockAction, agent, 0⟩, true), (⟨lockAction, ⟨⟨"ip:10.0.0.2"⟩⟩, 1⟩, false), (⟨lockAction, agent, 2⟩, true)]

theorem evaluate_exact_window_two_callers :
    (⟨minuteConfig, .empty, none⟩ : ThresholdPolicy).decisions (twoCallers.map Prod.fst) =
        Reference.decisions minuteConfig [] (twoCallers.map Prod.fst) ∧
      Reference.keptDecisions minuteConfig agent.identity twoCallers
          ((⟨minuteConfig, .empty, none⟩ : ThresholdPolicy).decisions (twoCallers.map Prod.fst)) =
        Reference.keyDecisions minuteConfig agent.identity (Reference.kept twoCallers)
          ((⟨minuteConfig, .empty, none⟩ : ThresholdPolicy).decisions (Reference.kept twoCallers)) := by
  have whole : InScope minuteConfig (twoCallers.map Prod.fst) := by
    refine ⟨by decide, by decide +kernel, ?_⟩
    simp only [twoCallers, List.map_cons, List.map_nil, eachStep_cons]
    exact ⟨by decide +kernel, by decide +kernel, by decide +kernel, eachStep_nil⟩
  have part : InScope minuteConfig (Reference.kept twoCallers) := by
    refine ⟨by decide, by decide +kernel, ?_⟩
    have calls : Reference.kept twoCallers = [⟨lockAction, agent, 0⟩, ⟨lockAction, agent, 2⟩] := by decide
    simp only [calls, eachStep_cons]
    exact ⟨by decide +kernel, by decide +kernel, eachStep_nil⟩
  have exact_window := evaluate_exact_window minuteConfig (twoCallers.map Prod.fst) whole
  exact ⟨exact_window.1, exact_window.2 agent.identity twoCallers rfl part (by decide +kernel)⟩

end ThresholdPolicy

end AiProtect
