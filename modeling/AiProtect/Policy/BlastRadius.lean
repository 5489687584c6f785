import AiProtect.Lib.Runs
import AiProtect.Policy.Chain

/-! # The blast-radius bound over whole runs

A `Gate` is the list of policies in front of the upstream together with the
`evaluate_all` calls of all connections. A call asks one policy at a time, so other
calls and the state sync of any policy may run between two of its questions. The
ghost fields of a slot record what the policy was asked and the last reading of its
clock. The bound holds for every closed interval as long as nothing is evicted.
-/

namespace AiProtect

open SlidingWindow Runs

namespace ThresholdPolicy

theorem filter_subperm_prepare {policy : ThresholdPolicy} {key : Identity}
    (kept : (policy.makeRoom key).byIdentity = policy.history.byIdentity) {now later : Int} (id : Identity)
    (le : now ≤ later) :
    ((policy.history.window id).filter (recent (policy.config.window : Int) later)).Subperm
      ((policy.prepare key now).window id) := by
  rw [window_prepare policy now kept]
  split
  · rename_i same
    rw [same, ← filter_measured policy key le]
    exact List.filter_sublist.subperm
  · exact List.filter_sublist.subperm

/-- A merge keeps, for every key, what is recent at its own reading or later. -/
theorem filter_subperm_merge (anchor : Anchor) (rows : Snapshot) {history : History} (width : Nat)
    (key : Identity) {now later : Int} (le : now ≤ later) :
    ((history.window key).filter (recent (width : Int) later)).Subperm
      (((mergeHistoryFromRows history anchor rows width now).window key).filter (recent (width : Int) later)) := by
  simp only [mergeHistoryFromRows]
  induction rows.entries generalizing history with
  | nil => exact List.Subperm.refl _
  | cons row rows ih =>
      refine List.Subperm.trans ?_ (@ih (mergeIdentity anchor now width history row))
      rw [mergeIdentity, History.window_set]
      split
      · rename_i same
        rw [same, ← filter_recent_recent le]
        exact (filter_subperm_mergeWindow anchor now width _ row.2).filter _
      · exact List.Subperm.refl _

end ThresholdPolicy

/-- A covered action as one policy saw it. -/
structure Ask where
  call : Nat
  key : Identity
  time : Int
  radius : Nat
  decision : Decision
  deriving DecidableEq

structure Slot where
  policy : ThresholdPolicy
  syncing : Option Anchor
  asks : List Ask
  clock : WithBot Int

/-- One `evaluate_all` in progress: the policy it asks next, and its decision once made. -/
structure ChainCall where
  action : Action
  ctx : PolicyContext
  next : Nat
  decision : Option Decision
  deriving DecidableEq

structure Gate where
  slots : List Slot
  calls : List ChainCall

inductive GateLabel where
  | arrive (action : Action) (ctx : PolicyContext)
  | advance (call : Nat) (now : Int)
  | drain (slot : Nat) (anchor : Anchor)
  | syncFailed (slot : Nat)
  | merge (slot : Nat) (rows : Snapshot) (now : Int)

namespace Slot

def evaluate (slot : Slot) (call : Nat) (action : Action) (ctx : PolicyContext) (now : Int) : Decision × Slot :=
  let result := slot.policy.evaluate action ctx now
  (result.1, { slot with
    policy := result.2
    asks := if slot.policy.config.covers action.operation = true then
        slot.asks ++ [⟨call, slot.policy.config.historyKey ctx, now, action.blastRadius, result.1⟩]
      else slot.asks
    clock := if slot.policy.measures action = true then (now : WithBot Int) else slot.clock })

/-- The start of a `sync_once`; the next one waits until this one is done. -/
def drain (slot : Slot) (anchor : Anchor) : Slot :=
  if slot.policy.state.isSome && slot.syncing.isNone then
    { slot with policy := (slot.policy.drain anchor).2, syncing := some anchor }
  else slot

def syncFailed (slot : Slot) : Slot := { slot with syncing := none }

def merge (slot : Slot) (rows : Snapshot) (now : Int) : Slot :=
  match slot.syncing with
  | none => slot
  | some anchor => { slot with
      policy := slot.policy.foldSnapshot anchor rows now
      syncing := none
      clock := (now : WithBot Int) }

end Slot

namespace Gate

/-- Policies with nothing in their histories; the flag says whether there is a `state_db`. -/
def start (configs : List (ThresholdConfig × Bool)) : Gate where
  slots := configs.map fun entry =>
    ⟨⟨entry.1, .empty, if entry.2 = true then some ⟨[]⟩ else none⟩, none, [], ⊥⟩
  calls := []

/-- One turn of the loop in `evaluate_all`, for the call at index `c`. -/
def advance (gate : Gate) (c : Nat) (now : Int) : Gate :=
  match gate.calls[c]? with
  | none => gate
  | some call =>
      match call.decision with
      | some _ => gate
      | none =>
          match gate.slots[call.next]? with
          | none => { gate with calls := gate.calls.set c { call with decision := some .allow } }
          | some slot =>
              match slot.evaluate c call.action call.ctx now with
              | (.allow, asked) =>
                  { slots := gate.slots.set call.next asked
                    calls := gate.calls.set c { call with next := call.next + 1 } }
              | (.block reason, asked) =>
                  { slots := gate.slots.set call.next asked
                    calls := gate.calls.set c { call with decision := some (.block reason) } }

/-- What `advance` does, by the point the call has reached. -/
inductive Turn (gate : Gate) (c : Nat) (now : Int) : Prop where
  | idle (result : gate.advance c now = gate)
  | returned {call : ChainCall} (found : gate.calls[c]? = some call) (undecided : call.decision = none)
      (exhausted : gate.slots[call.next]? = none)
      (result : gate.advance c now =
        { gate with calls := gate.calls.set c { call with decision := some .allow } })
  | passed {call : ChainCall} {slot after : Slot} (found : gate.calls[c]? = some call)
      (undecided : call.decision = none) (asked : gate.slots[call.next]? = some slot)
      (verdict : slot.evaluate c call.action call.ctx now = (.allow, after))
      (result : gate.advance c now =
        { slots := gate.slots.set call.next after, calls := gate.calls.set c { call with next := call.next + 1 } })
  | stopped {call : ChainCall} {slot after : Slot} {reason : String} (found : gate.calls[c]? = some call)
      (undecided : call.decision = none) (asked : gate.slots[call.next]? = some slot)
      (verdict : slot.evaluate c call.action call.ctx now = (.block reason, after))
      (result : gate.advance c now =
        { slots := gate.slots.set call.next after
          calls := gate.calls.set c { call with decision := some (.block reason) } })

theorem advance_turn (gate : Gate) (c : Nat) (now : Int) : Turn gate c now := by
  cases found : gate.calls[c]? with
  | none => exact .idle (by simp only [advance, found])
  | some call =>
      cases undecided : call.decision with
      | some _ => exact .idle (by simp only [advance, found, undecided])
      | none =>
          cases asked : gate.slots[call.next]? with
          | none => exact .returned found undecided asked (by simp only [advance, found, undecided, asked])
          | some slot =>
              rcases verdict : slot.evaluate c call.action call.ctx now with ⟨decision, after⟩
              cases decision with
              | allow =>
                  exact .passed found undecided asked verdict
                    (by simp only [advance, found, undecided, asked, verdict])
              | block reason =>
                  exact .stopped found undecided asked verdict
                    (by simp only [advance, found, undecided, asked, verdict])

def step (gate : Gate) : GateLabel → Gate
  | .arrive action ctx => { gate with calls := gate.calls ++ [⟨action, ctx, 0, none⟩] }
  | .advance c now => gate.advance c now
  | .drain i anchor => { gate with slots := gate.slots.modify i (Slot.drain · anchor) }
  | .syncFailed i => { gate with slots := gate.slots.modify i Slot.syncFailed }
  | .merge i rows now => { gate with slots := gate.slots.modify i (Slot.merge · rows now) }

/-- What `evaluate_all` has returned for the call, if it has returned. -/
def outcome (gate : Gate) (c : Nat) : Option Decision := gate.calls[c]?.bind ChainCall.decision

end Gate

/-- The clock of the policy has not gone back, nothing is evicted, and the window sum fits. -/
structure Slot.CalmAsk (slot : Slot) (action : Action) (ctx : PolicyContext) (now : Int) : Prop where
  clock : slot.clock ≤ (now : WithBot Int)
  kept : (slot.policy.makeRoom (slot.policy.config.historyKey ctx)).byIdentity = slot.policy.history.byIdentity
  fits : (slot.policy.measured (slot.policy.config.historyKey ctx) now).length + action.blastRadius < 2 ^ 64

structure Slot.CalmMerge (slot : Slot) (anchor : Anchor) (rows : Snapshot) (now : Int) : Prop where
  clock : slot.clock ≤ (now : WithBot Int)
  kept : (slot.policy.foldSnapshot anchor rows now).history.byIdentity =
    (mergeHistoryFromRows slot.policy.history anchor rows slot.policy.config.window now).byIdentity

/-- Whether a reading is at or after the last one. -/
def decideNotBefore (clock : WithBot Int) (now : Int) : Decidable (clock ≤ (now : WithBot Int)) :=
  match clock with
  | none => .isTrue bot_le
  | some last => decidable_of_iff (last ≤ now) WithBot.coe_le_coe.symm

instance (slot : Slot) (action : Action) (ctx : PolicyContext) (now : Int) :
    Decidable (slot.CalmAsk action ctx now) :=
  have := decideNotBefore slot.clock now
  decidable_of_iff (slot.clock ≤ (now : WithBot Int) ∧ _ ∧ _) ⟨fun ⟨clock, kept, fits⟩ => ⟨clock, kept, fits⟩,
    fun ⟨clock, kept, fits⟩ => ⟨clock, kept, fits⟩⟩

instance (slot : Slot) (anchor : Anchor) (rows : Snapshot) (now : Int) :
    Decidable (slot.CalmMerge anchor rows now) :=
  have := decideNotBefore slot.clock now
  decidable_of_iff (slot.clock ≤ (now : WithBot Int) ∧ _) ⟨fun ⟨clock, kept⟩ => ⟨clock, kept⟩,
    fun ⟨clock, kept⟩ => ⟨clock, kept⟩⟩

def Gate.Calm (gate : Gate) : GateLabel → Prop
  | .advance c now => ∀ call ∈ gate.calls[c]?, call.decision = none →
      ∀ slot ∈ gate.slots[call.next]?, slot.policy.measures call.action = true → slot.CalmAsk call.action call.ctx now
  | .merge i rows now => ∀ slot ∈ gate.slots[i]?, ∀ anchor ∈ slot.syncing, slot.CalmMerge anchor rows now
  | _ => True

instance (gate : Gate) (label : GateLabel) : Decidable (gate.Calm label) :=
  match label with
  | .advance c _ => inferInstanceAs (Decidable (∀ call ∈ gate.calls[c]?, _))
  | .merge i _ _ => inferInstanceAs (Decidable (∀ slot ∈ gate.slots[i]?, _))
  | .arrive _ _ | .drain _ _ | .syncFailed _ => inferInstanceAs (Decidable True)

namespace Slot

/-- What the policy has let through under `key`, in order: reading and radius. -/
def admitted (slot : Slot) (key : Identity) : List (Int × Nat) :=
  (slot.asks.filter fun ask => ask.key = key ∧ ask.decision = .allow).map fun ask => (ask.time, ask.radius)

/-- The invariant that carries the bound: every window holds what was admitted and is
    still recent, each admission fitted, and a call that was blocked here stays blocked. -/
structure Bounded (outcome : Nat → Option Decision) (slot : Slot) : Prop where
  past : ∀ ask ∈ slot.asks, ask.decision = .allow → (ask.time : WithBot Int) ≤ slot.clock
  small : ∀ ask ∈ slot.asks, ask.decision = .allow → ask.radius ≤ slot.policy.config.maxPerRequest
  refused : ∀ ask ∈ slot.asks, ask.decision ≠ .allow → ∃ reason, outcome ask.call = some (.block reason)
  retains : ∀ key, Retains (slot.policy.config.window : Int) slot.clock (slot.admitted key)
    (slot.policy.history.window key)
  disciplined : ∀ key, Admitted (slot.policy.config.window : Int) slot.policy.config.maxPerWindow
    (slot.admitted key)

namespace Bounded

variable {outcome outcome' : Nat → Option Decision} {slot : Slot}

theorem mono (bounded : Bounded outcome slot) (stable : ∀ c d, outcome c = some d → outcome' c = some d) :
    Bounded outcome' slot :=
  { bounded with
    refused := fun ask member blocked =>
      (bounded.refused ask member blocked).imp fun _ decided => stable _ _ decided }

/-- The history may be replaced by one that keeps what is recent from `now` on. -/
theorem replace (bounded : Bounded outcome slot) {now : Int} (le : slot.clock ≤ (now : WithBot Int))
    (policy : ThresholdPolicy) (same : policy.config = slot.policy.config) (syncing : Option Anchor)
    (kept : ∀ key later, now ≤ later →
      ((slot.policy.history.window key).filter (recent (slot.policy.config.window : Int) later)).Subperm
        (policy.history.window key)) :
    Bounded outcome { slot with policy, syncing, clock := (now : WithBot Int) } where
  past := fun ask member allowed => (bounded.past ask member allowed).trans le
  small := by
    rw [same]
    exact bounded.small
  refused := bounded.refused
  retains := by
    intro key
    rw [same]
    exact (bounded.retains key).replace le (kept key)
  disciplined := by
    rw [same]
    exact bounded.disciplined

theorem refuse (bounded : Bounded outcome slot) (ask : Ask) {reason : String}
    (blocked : ask.decision = .block reason) (decided : outcome ask.call = some (.block reason)) :
    Bounded outcome { slot with asks := slot.asks ++ [ask] } := by
  have ne : ask.decision ≠ .allow := by
    rw [blocked]
    intro same
    cases same
  have logs : ∀ key, ({ slot with asks := slot.asks ++ [ask] } : Slot).admitted key = slot.admitted key := by
    intro key
    simp only [admitted, List.filter_append, List.filter_singleton, ne, and_false, decide_false,
      cond_false, List.append_nil]
  refine ⟨?_, ?_, ?_, ?_, ?_⟩
  · intro other member allowed
    rcases List.mem_append.mp member with member | member
    · exact bounded.past other member allowed
    · rw [List.mem_singleton.mp member] at allowed
      exact absurd allowed ne
  · intro other member allowed
    rcases List.mem_append.mp member with member | member
    · exact bounded.small other member allowed
    · rw [List.mem_singleton.mp member] at allowed
      exact absurd allowed ne
  · intro other member stopped
    rcases List.mem_append.mp member with member | member
    · exact bounded.refused other member stopped
    · rw [List.mem_singleton.mp member]
      exact ⟨reason, decided⟩
  · intro key
    rw [logs]
    exact bounded.retains key
  · intro key
    rw [logs]
    exact bounded.disciplined key

/-- Admission at the current reading, into a window with enough room. -/
theorem grant (bounded : Bounded outcome slot) (ask : Ask) (allowed : ask.decision = .allow)
    (current : slot.clock = (ask.time : WithBot Int)) (small : ask.radius ≤ slot.policy.config.maxPerRequest)
    (fits : (slot.policy.history.window ask.key).length + ask.radius ≤ slot.policy.config.maxPerWindow)
    {policy : ThresholdPolicy} (same : policy.config = slot.policy.config)
    (windows : ∀ key, policy.history.window key = if key = ask.key then
      slot.policy.history.window ask.key ++ List.replicate ask.radius ask.time
      else slot.policy.history.window key) :
    Bounded outcome { slot with policy, asks := slot.asks ++ [ask] } := by
  have logs : ∀ key, ({ slot with policy, asks := slot.asks ++ [ask] } : Slot).admitted key =
      if key = ask.key then slot.admitted ask.key ++ [(ask.time, ask.radius)] else slot.admitted key := by
    intro key
    by_cases mine : key = ask.key
    · simp [admitted, mine, allowed]
    · simp [admitted, mine, Ne.symm mine]
  refine ⟨?_, ?_, ?_, ?_, ?_⟩
  · intro other member stays
    rcases List.mem_append.mp member with member | member
    · exact bounded.past other member stays
    · rw [List.mem_singleton.mp member, current]
  · intro other member stays
    simp only [same]
    rcases List.mem_append.mp member with member | member
    · exact bounded.small other member stays
    · rwa [List.mem_singleton.mp member]
  · intro other member stopped
    rcases List.mem_append.mp member with member | member
    · exact bounded.refused other member stopped
    · rw [List.mem_singleton.mp member] at stopped
      exact absurd allowed stopped
  · intro key
    rw [logs]
    simp only [windows, same]
    split
    · exact (bounded.retains ask.key).extend ask.time ask.radius
    · exact bounded.retains key
  · intro key
    rw [logs]
    simp only [same]
    split
    · refine (bounded.disciplined ask.key).snoc ?_ ?_
      · intro event member
        obtain ⟨earlier, inside, rfl⟩ := List.mem_map.mp member
        obtain ⟨inside, selected⟩ := List.mem_filter.mp inside
        have before := bounded.past earlier inside (of_decide_eq_true selected).2
        rw [current] at before
        exact WithBot.coe_le_coe.mp before
      · have retains := bounded.retains ask.key
        rw [current] at retains
        have held := retains.sumWhere_le
        omega
    · exact bounded.disciplined key

/-- A merge keeps the invariant, whatever the rows. -/
theorem merge (bounded : Bounded outcome slot) {rows : Snapshot} {now : Int}
    (calm : ∀ anchor ∈ slot.syncing, slot.CalmMerge anchor rows now) :
    Bounded outcome (slot.merge rows now) := by
  simp only [Slot.merge]
  cases syncing : slot.syncing with
  | none => exact bounded
  | some anchor =>
      obtain ⟨le, kept⟩ := calm anchor syncing
      refine bounded.replace le (slot.policy.foldSnapshot anchor rows now) rfl none ?_
      intro key later after
      have windows : (slot.policy.foldSnapshot anchor rows now).history.window key =
          (mergeHistoryFromRows slot.policy.history anchor rows slot.policy.config.window now).window key := by
        simp only [History.window, History.get, kept]
      rw [windows]
      exact (ThresholdPolicy.filter_subperm_merge anchor rows _ key after).trans List.filter_sublist.subperm

/-- A question keeps the invariant once the call's outcome reflects a block. -/
theorem evaluate (bounded : Bounded outcome slot) (call : Nat) {action : Action} {ctx : PolicyContext}
    {now : Int} (calm : slot.policy.measures action = true → slot.CalmAsk action ctx now)
    (reflected : ∀ reason, (slot.evaluate call action ctx now).1 = .block reason →
      outcome call = some (.block reason)) : Bounded outcome (slot.evaluate call action ctx now).2 := by
  simp only [Slot.evaluate, ThresholdPolicy.measures] at calm reflected ⊢
  cases slot.policy.evaluate_outcome action ctx now with
  | bypassed outside result =>
      simp only [result, outside, Bool.false_eq_true, Bool.false_and, if_false]
      exact bounded
  | oversized covered large result =>
      simp only [result, Decision.block.injEq, forall_eq'] at reflected
      have unread : decide (action.blastRadius ≤ slot.policy.config.maxPerRequest) = false :=
        decide_eq_false (by omega)
      simp only [result, covered, unread, Bool.and_false, Bool.false_eq_true, if_false, if_true]
      exact bounded.refuse _ rfl reflected
  | overBudget covered small full result =>
      simp only [result, Decision.block.injEq, forall_eq'] at reflected
      simp only [covered, decide_eq_true small, Bool.and_true, forall_const] at calm
      simp only [result, covered, decide_eq_true small, Bool.and_true, if_true]
      have prepared := bounded.replace calm.clock
        { slot.policy with history := slot.policy.prepare (slot.policy.config.historyKey ctx) now } rfl slot.syncing
        fun key later after => ThresholdPolicy.filter_subperm_prepare calm.kept key after
      exact prepared.refuse ⟨call, slot.policy.config.historyKey ctx, now, action.blastRadius, .block _⟩ rfl reflected
  | admitted covered small fits result =>
      simp only [covered, decide_eq_true small, Bool.and_true, forall_const] at calm
      rw [addUsize_of_fits calm.fits] at fits
      simp only [result, covered, decide_eq_true small, Bool.and_true, if_true]
      have prepared := bounded.replace calm.clock
        { slot.policy with history := slot.policy.prepare (slot.policy.config.historyKey ctx) now } rfl slot.syncing
        fun key later after => ThresholdPolicy.filter_subperm_prepare calm.kept key after
      refine prepared.grant ⟨call, slot.policy.config.historyKey ctx, now, action.blastRadius, .allow⟩
        rfl rfl small ?_ rfl ?_
      · simpa only [ThresholdPolicy.window_prepare_self] using fits
      · intro key
        exact History.window_recordAdmitted (ThresholdPolicy.get_prepare_isSome _ _ _) key now _

/-- Actions that were finally allowed had been allowed here, and those obey both limits. -/
theorem limits (bounded : Bounded outcome slot) :
    (∀ (key : Identity) (since : Int), ((slot.asks.filter fun ask => ask.key = key ∧
        outcome ask.call = some .allow ∧ since ≤ ask.time ∧ ask.time ≤ since + slot.policy.config.window).map
          Ask.radius).sum ≤ slot.policy.config.maxPerWindow) ∧
      ∀ ask ∈ slot.asks, outcome ask.call = some .allow → ask.radius ≤ slot.policy.config.maxPerRequest := by
  have here : ∀ ask ∈ slot.asks, outcome ask.call = some .allow → ask.decision = .allow := by
    intro ask member finally_
    by_contra stopped
    obtain ⟨reason, blocked⟩ := bounded.refused ask member stopped
    rw [finally_] at blocked
    cases blocked
  refine ⟨?_, fun ask member finally_ => bounded.small ask member (here ask member finally_)⟩
  intro key since
  refine le_trans ?_ ((bounded.disciplined key).intervalSum_le since)
  simp only [sumWhere, admitted, List.filter_map, List.map_map, List.filter_filter]
  refine List.Sublist.sum_le_sum (List.Sublist.map Ask.radius ?_) fun _ _ => Nat.zero_le _
  have within : slot.asks.filter (fun ask => ask.key = key ∧ outcome ask.call = some .allow ∧
      since ≤ ask.time ∧ ask.time ≤ since + slot.policy.config.window) =
      slot.asks.filter (fun ask => ask.decision = .allow ∧ ask.key = key ∧ outcome ask.call = some .allow ∧
        since ≤ ask.time ∧ ask.time ≤ since + slot.policy.config.window) := by
    apply List.filter_congr
    intro ask member
    rw [decide_eq_decide]
    exact ⟨fun selected => ⟨here ask member selected.2.1, selected⟩, And.right⟩
  rw [within]
  refine List.monotone_filter_right _ fun ask selected => ?_
  obtain ⟨allowed, same, -, inside⟩ := of_decide_eq_true selected
  simp only [Function.comp_apply, Bool.and_eq_true, decide_eq_true_eq]
  exact ⟨inside, same, allowed⟩

end Bounded

end Slot

namespace Gate

/-- A decision that has been made stays. -/
theorem outcome_set {gate : Gate} {c : Nat} {call : ChainCall} (found : gate.calls[c]? = some call)
    (undecided : call.decision = none) (next : ChainCall) (slots : List Slot) {other : Nat} {decision : Decision}
    (decided : gate.outcome other = some decision) :
    ({ slots, calls := gate.calls.set c next } : Gate).outcome other = some decision := by
  have ne : c ≠ other := by
    rintro rfl
    simp only [outcome, found, Option.bind_some, undecided] at decided
    cases decided
  simpa only [outcome, List.getElem?_set_ne ne] using decided

theorem outcome_set_self {gate : Gate} {c : Nat} {call : ChainCall} (found : gate.calls[c]? = some call)
    (next : ChainCall) (slots : List Slot) :
    ({ slots, calls := gate.calls.set c next } : Gate).outcome c = next.decision := by
  obtain ⟨inside, -⟩ := List.getElem?_eq_some_iff.mp found
  simp only [outcome, List.getElem?_set_self inside, Option.bind_some]

theorem outcome_arrive {gate : Gate} (call : ChainCall) {c : Nat} {decision : Decision}
    (decided : gate.outcome c = some decision) :
    ({ gate with calls := gate.calls ++ [call] } : Gate).outcome c = some decision := by
  obtain ⟨found, at_c, made⟩ := Option.bind_eq_some_iff.mp decided
  obtain ⟨inside, -⟩ := List.getElem?_eq_some_iff.mp at_c
  simp only [outcome, List.getElem?_append_left inside, at_c, Option.bind_some, made]

def Bounded (gate : Gate) : Prop := ∀ slot ∈ gate.slots, slot.Bounded gate.outcome

theorem bounded_start (configs : List (ThresholdConfig × Bool)) : (start configs).Bounded := by
  intro slot member
  obtain ⟨entry, -, rfl⟩ := List.mem_map.mp member
  refine ⟨?_, ?_, ?_, fun _ => Retains.nil, fun _ => Admitted.nil⟩
  all_goals
    intro ask member
    cases member

theorem Bounded.modify {gate : Gate} (bounded : gate.Bounded) (i : Nat) (change : Slot → Slot)
    (kept : ∀ slot ∈ gate.slots[i]?, slot.Bounded gate.outcome → (change slot).Bounded gate.outcome) :
    ({ gate with slots := gate.slots.modify i change } : Gate).Bounded := by
  intro slot member
  obtain ⟨j, found⟩ := List.getElem?_of_mem member
  simp only [List.getElem?_modify] at found
  obtain ⟨old, at_j, rfl⟩ := Option.map_eq_some_iff.mp found
  have before := bounded old (List.mem_of_getElem? at_j)
  split
  · rename_i same
    exact kept old (same ▸ at_j) before
  · exact before

theorem Bounded.asked {gate : Gate} (bounded : gate.Bounded) {c : Nat} {call next : ChainCall} {now : Int}
    (calm : gate.Calm (.advance c now)) (found : gate.calls[c]? = some call) (undecided : call.decision = none)
    {slot after : Slot} (asked : gate.slots[call.next]? = some slot) {decision : Decision}
    (verdict : slot.evaluate c call.action call.ctx now = (decision, after))
    (reflected : ∀ reason, decision = .block reason → next.decision = some (.block reason)) :
    ({ slots := gate.slots.set call.next after, calls := gate.calls.set c next } : Gate).Bounded := by
  intro entry member
  rcases List.mem_or_eq_of_mem_set member with member | rfl
  · exact (bounded entry member).mono fun _ _ => outcome_set found undecided next _
  · have before := (bounded slot (List.mem_of_getElem? asked)).mono
      fun _ _ => outcome_set found undecided next (gate.slots.set call.next entry)
    have kept := before.evaluate c (calm call found undecided slot asked)
    rw [verdict] at kept
    refine kept fun reason blocked => ?_
    rw [outcome_set_self found, reflected reason blocked]

theorem Bounded.advance {gate : Gate} (bounded : gate.Bounded) {c : Nat} {now : Int}
    (calm : gate.Calm (.advance c now)) : (gate.advance c now).Bounded := by
  cases gate.advance_turn c now with
  | idle result =>
      rw [result]
      exact bounded
  | returned found undecided _ result =>
      rw [result]
      intro slot member
      exact (bounded slot member).mono fun _ _ => outcome_set found undecided _ _
  | passed found undecided asked verdict result =>
      rw [result]
      exact bounded.asked calm found undecided asked verdict (fun _ blocked => by cases blocked)
  | stopped found undecided asked verdict result =>
      rw [result]
      exact bounded.asked calm found undecided asked verdict (fun _ blocked => congrArg some blocked)

theorem Bounded.step {gate : Gate} (bounded : gate.Bounded) {label : GateLabel} (calm : gate.Calm label) :
    (gate.step label).Bounded := by
  cases label with
  | arrive action ctx => exact fun slot member => (bounded slot member).mono fun _ _ => outcome_arrive _
  | advance c now => exact bounded.advance calm
  | drain i anchor =>
      refine bounded.modify i _ fun slot _ before => ?_
      simp only [Slot.drain, ThresholdPolicy.drain]
      split
      · split
        · exact ⟨before.past, before.small, before.refused, before.retains, before.disciplined⟩
        · exact ⟨before.past, before.small, before.refused, before.retains, before.disciplined⟩
      · exact before
  | syncFailed i =>
      refine bounded.modify i _ fun slot _ before => ?_
      exact ⟨before.past, before.small, before.refused, before.retains, before.disciplined⟩
  | merge i rows now => exact bounded.modify i _ fun slot found before => before.merge (calm slot found)

theorem advance_decided {gate : Gate} {c : Nat} {decision : Decision} (decided : gate.outcome c = some decision)
    (now : Int) : gate.advance c now = gate := by
  obtain ⟨call, found, made⟩ := Option.bind_eq_some_iff.mp decided
  simp only [advance, found, made]

theorem foldl_advance_decided {gate : Gate} {c : Nat} {decision : Decision}
    (decided : gate.outcome c = some decision) (readings : List Int) :
    readings.foldl (fun gate now => gate.advance c now) gate = gate := by
  induction readings with
  | nil => rfl
  | cons now readings ih => rw [List.foldl_cons, advance_decided decided, ih]

theorem take_set_succ {slots : List Slot} {index : Nat} (inside : index < slots.length) (after : Slot) :
    (slots.set index after).take (index + 1) = slots.take index ++ [after] := by
  have bound : index < (slots.set index after).length := by rwa [List.length_set]
  rw [List.take_succ_eq_append_getElem bound, List.take_set_of_le (Nat.le_refl index), List.getElem_set_self]

/-- A call whose turns nothing interrupts is `evaluate_all` on the policies it has not asked yet. -/
theorem foldl_advance_eq_evaluateAll {entries : List (Slot × Int)} {gate : Gate} {c : Nat} {call : ChainCall}
    (found : gate.calls[c]? = some call) (undecided : call.decision = none)
    (rest : gate.slots.drop call.next = entries.map Prod.fst) (last : Int) :
    ((entries.map Prod.snd ++ [last]).foldl (fun gate now => gate.advance c now) gate).outcome c =
        some (evaluateAll call.action call.ctx (entries.map fun entry => (entry.1.policy, entry.2))).1 ∧
      ((entries.map Prod.snd ++ [last]).foldl (fun gate now => gate.advance c now) gate).slots.map Slot.policy =
        (gate.slots.take call.next).map Slot.policy ++
          (evaluateAll call.action call.ctx (entries.map fun entry => (entry.1.policy, entry.2))).2 := by
  induction entries generalizing gate call with
  | nil =>
      have exhausted : gate.slots[call.next]? = none := by
        rw [List.getElem?_eq_none_iff]
        exact List.drop_eq_nil_iff.mp rest
      have result : gate.advance c last =
          { gate with calls := gate.calls.set c { call with decision := some .allow } } := by
        simp only [advance, found, undecided, exhausted]
      have all : gate.slots.take call.next = gate.slots := List.take_of_length_le (List.drop_eq_nil_iff.mp rest)
      simp only [List.map_nil, List.nil_append, List.foldl_cons, List.foldl_nil, result, outcome_set_self found,
        evaluateAll, all, List.append_nil, and_self]
  | cons entry entries ih =>
      obtain ⟨slot, now⟩ := entry
      have inside : call.next < gate.slots.length := by
        by_contra beyond
        rw [List.drop_eq_nil_of_le (Nat.le_of_not_lt beyond)] at rest
        cases rest
      rw [List.drop_eq_getElem_cons inside, List.map_cons, List.cons.injEq] at rest
      obtain ⟨here, tail⟩ := rest
      have asked : gate.slots[call.next]? = some slot := by
        rw [List.getElem?_eq_getElem inside, here]
      rcases verdict : slot.evaluate c call.action call.ctx now with ⟨decision, after⟩
      have policy : slot.policy.evaluate call.action call.ctx now = (decision, after.policy) := by
        simp only [Slot.evaluate, Prod.mk.injEq] at verdict
        rw [← verdict.1, ← verdict.2]
      have upTo : ((gate.slots.set call.next after).take (call.next + 1)).map Slot.policy =
          (gate.slots.take call.next).map Slot.policy ++ [after.policy] := by
        rw [take_set_succ inside, List.map_append, List.map_singleton]
      simp only [List.map_cons, List.cons_append, List.foldl_cons, evaluateAll, Policy.evaluate, policy]
      cases decision with
      | allow =>
          have result : gate.advance c now =
              { slots := gate.slots.set call.next after
                calls := gate.calls.set c { call with next := call.next + 1 } } := by
            simp only [advance, found, undecided, asked, verdict]
          obtain ⟨bound, -⟩ := List.getElem?_eq_some_iff.mp found
          have again : (gate.calls.set c { call with next := call.next + 1 })[c]? =
              some { call with next := call.next + 1 } := List.getElem?_set_self bound
          have unasked : (gate.slots.set call.next after).drop (call.next + 1) = entries.map Prod.fst := by
            rw [List.drop_set_of_lt (Nat.lt_succ_self _), tail]
          rw [result]
          obtain ⟨decided, policies⟩ := @ih ⟨gate.slots.set call.next after, _⟩ _ again undecided unasked
          refine ⟨decided, ?_⟩
          rw [policies, upTo, List.append_assoc, List.singleton_append]
      | block reason =>
          have result : gate.advance c now =
              { slots := gate.slots.set call.next after
                calls := gate.calls.set c { call with decision := some (.block reason) } } := by
            simp only [advance, found, undecided, asked, verdict]
          have decided := outcome_set_self found { call with decision := some (.block reason) }
            (gate.slots.set call.next after)
          rw [result, foldl_advance_decided decided]
          refine ⟨decided, ?_⟩
          have split := List.take_append_drop (call.next + 1) (gate.slots.set call.next after)
          rw [List.drop_set_of_lt (Nat.lt_succ_self _), tail] at split
          rw [← split, List.map_append, upTo, List.append_assoc, List.singleton_append, List.map_map, List.map_map]
          rfl

/-- Over every run without evictions, the actions that `evaluate_all` allowed stay
    within both limits of every policy that covers them, in every closed interval of
    the policy's window. -/
theorem blast_radius_bounded (configs : List (ThresholdConfig × Bool)) (labels : List GateLabel)
    (calm : EachStep step Calm (start configs) labels) :
    ∀ slot ∈ (labels.foldl step (start configs)).slots,
      (∀ (key : Identity) (since : Int), ((slot.asks.filter fun ask => ask.key = key ∧
          (labels.foldl step (start configs)).outcome ask.call = some .allow ∧
          since ≤ ask.time ∧ ask.time ≤ since + slot.policy.config.window).map Ask.radius).sum ≤
            slot.policy.config.maxPerWindow) ∧
      ∀ ask ∈ slot.asks, (labels.foldl step (start configs)).outcome ask.call = some .allow →
        ask.radius ≤ slot.policy.config.maxPerRequest := by
  have bounded := calm.invariant (bounded_start configs) fun _ _ kept here => Bounded.step kept here
  generalize labels.foldl step (start configs) = gate at bounded
  intro slot member
  exact (bounded slot member).limits

/-- Two callers pass a per-identity and a global policy, and the first policy syncs in between. -/
def interleavedRun : List GateLabel :=
  [.arrive ThresholdPolicy.lockAction ThresholdPolicy.agent,
    .arrive ThresholdPolicy.lockAction ⟨⟨"ip:10.0.0.2"⟩⟩,
    .advance 0 5, .drain 0 ⟨5, 0⟩, .advance 1 6, .merge 0 (AList.singleton "ip:10.0.0.1" [0, 0]) 7,
    .advance 1 8, .advance 0 9, .advance 0 9, .advance 1 9]

def stackedGate : Gate :=
  start [(ThresholdPolicy.minuteConfig, true), ({ ThresholdPolicy.minuteConfig with scope := .global }, false)]

theorem blast_radius_bounded_interleaved :
    (interleavedRun.foldl step stackedGate).calls.map ChainCall.decision = [some .allow, some .allow] ∧
      ∀ slot ∈ (interleavedRun.foldl step stackedGate).slots, ∀ (key : Identity) (since : Int),
        ((slot.asks.filter fun ask => ask.key = key ∧
          (interleavedRun.foldl step stackedGate).outcome ask.call = some .allow ∧
          since ≤ ask.time ∧ ask.time ≤ since + slot.policy.config.window).map Ask.radius).sum ≤
            slot.policy.config.maxPerWindow := by
  refine ⟨by decide +kernel, fun slot member => (blast_radius_bounded _ interleavedRun ?_ slot member).1⟩
  simp only [interleavedRun, eachStep_cons]
  exact ⟨trivial, trivial, by decide +kernel, trivial, by decide +kernel, by decide +kernel, by decide +kernel,
    by decide +kernel, by decide +kernel, by decide +kernel, eachStep_nil⟩

end Gate

end AiProtect
