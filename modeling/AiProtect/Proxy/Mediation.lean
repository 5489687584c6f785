import AiProtect.Proxy.Reload

/-! # Mediation across connections and reloads

No frame with an action in it is written upstream unless every policy of its connection's
list that sees such actions was asked about it once and let it through, and none is
rejected unless one of them refused it. This holds whatever other connections, syncs and
reloads do between the questions.

The invariant compares what a call has on record with what each policy was asked by it.
-/

namespace AiProtect

open Places Runs

/-- What the policy has been asked by a call. -/
def Slot.asksOf (slot : Slot) (k : Nat) : List Ask := slot.asks.filter fun ask => ask.call = k

/-- The policy was asked once and answered so, or does not see such actions. -/
def Slot.Answered (slot : Slot) (k : Nat) (action : Action) (ctx : PolicyContext) (decision : Decision) : Prop :=
  (slot.policy.config.covers action.operation = true ∧ ∃ time, slot.asksOf k =
      [⟨k, slot.policy.config.historyKey ctx, time, action.blastRadius, decision⟩]) ∨
    (slot.policy.config.covers action.operation = false ∧ slot.asksOf k = [] ∧ decision = .allow)

/-- What a call has got from a policy so far. -/
def Judgement.answerAt (call : Judgement) (handle : Nat) : Option Decision :=
  if handle ∈ call.policies.take call.next then some .allow
  else if call.policies[call.next]? = some handle then call.decision
  else none

/-- The policy's record of a call is the call's. -/
structure Slot.Agrees (slot : Slot) (handle k : Nat) (call : Judgement) : Prop where
  answered : ∀ decision, call.answerAt handle = some decision → slot.Answered k call.action call.ctx decision
  unasked : call.answerAt handle = none → slot.asksOf k = []

section Agreement

variable {slot after : Slot} {handle k : Nat} {call : Judgement}

/-- Only what was asked by this call matters, and what the policy is configured to see. -/
theorem Slot.Agrees.congr (agrees : slot.Agrees handle k call) (asks : after.asksOf k = slot.asksOf k)
    (config : after.policy.config = slot.policy.config) : after.Agrees handle k call := by
  constructor
  · intro decision answer
    rw [Answered, asks, config]
    exact agrees.answered decision answer
  · intro none
    rw [asks]
    exact agrees.unasked none

theorem Slot.Agrees.of_answer (agrees : slot.Agrees handle k call) {next : Judgement}
    (action : next.action = call.action) (ctx : next.ctx = call.ctx)
    (answer : next.answerAt handle = call.answerAt handle) : slot.Agrees handle k next := by
  constructor
  · intro decision
    rw [answer, action, ctx]
    exact agrees.answered decision
  · intro none
    rw [answer] at none
    exact agrees.unasked none

theorem Judgement.answerAt_of_notMem (away : handle ∉ call.policies) : call.answerAt handle = none := by
  rw [answerAt, if_neg fun member => away (List.mem_of_mem_take member),
    if_neg fun found => away (List.mem_of_getElem? found)]

theorem Judgement.answerAt_next (asked : call.policies[call.next]? = some handle) (distinct : call.policies.Nodup) :
    call.answerAt handle = call.decision := by
  have unseen : handle ∉ call.policies.take call.next := by
    intro member
    obtain ⟨place, found⟩ := List.getElem?_of_mem member
    obtain ⟨inside, -⟩ := List.getElem?_eq_some_iff.mp found
    rw [List.length_take] at inside
    rw [List.getElem?_take_of_lt (by omega)] at found
    have same := (List.getElem?_inj (by omega) distinct).mp (found.trans asked.symm)
    omega
  rw [answerAt, if_neg unseen, if_pos asked]

/-- One more policy has let the action through. -/
theorem Judgement.answerAt_passed (undecided : call.decision = none)
    (asked : call.policies[call.next]? = some handle) (other : Nat) :
    ({ call with next := call.next + 1 } : Judgement).answerAt other =
      if other = handle then some .allow else call.answerAt other := by
  have taken : call.policies.take (call.next + 1) = call.policies.take call.next ++ [handle] := by
    rw [List.take_add_one, asked, Option.toList_some]
  simp only [answerAt, taken, List.mem_append, List.mem_singleton, undecided, ite_self]
  by_cases same : other = handle
  · rw [if_pos (.inr same), if_pos same]
  · simp only [same, or_false, if_false]

/-- A policy has refused the action. -/
theorem Judgement.answerAt_blocked (undecided : call.decision = none)
    (asked : call.policies[call.next]? = some handle) (distinct : call.policies.Nodup) (reason : String)
    (other : Nat) :
    ({ call with decision := some (.block reason) } : Judgement).answerAt other =
      if other = handle then some (.block reason) else call.answerAt other := by
  have unseen := answerAt_next asked distinct
  simp only [answerAt, asked, Option.some.injEq, undecided, ite_self] at unseen ⊢
  by_cases same : other = handle
  · subst same
    split at unseen
    · cases unseen
    · rename_i away
      rw [if_neg away, if_pos rfl, if_pos rfl]
  · simp only [same, Ne.symm same, if_false]

/-- The question of a call, as the policy records it. -/
theorem Slot.asksOf_evaluate {action : Action} {ctx : PolicyContext} {now : Int} {decision : Decision}
    (verdict : slot.evaluate k action ctx now = (decision, after)) (other : Nat) :
    after.asksOf other = slot.asksOf other ++
      if other = k ∧ slot.policy.config.covers action.operation = true then
        [⟨k, slot.policy.config.historyKey ctx, now, action.blastRadius, decision⟩] else [] := by
  simp only [evaluate, Prod.mk.injEq] at verdict
  obtain ⟨rfl, rfl⟩ := verdict
  by_cases covered : slot.policy.config.covers action.operation = true
  · by_cases mine : other = k
    · subst mine
      simp [asksOf, covered]
    · simp [asksOf, covered, mine, Ne.symm mine]
  · simp [asksOf, covered]

/-- A policy that does not see such actions lets them through. -/
theorem Slot.evaluate_outside {action : Action} {ctx : PolicyContext} {now : Int} {decision : Decision}
    (verdict : slot.evaluate k action ctx now = (decision, after))
    (outside : slot.policy.config.covers action.operation = false) : decision = .allow := by
  simp only [evaluate, Prod.mk.injEq] at verdict
  rw [← verdict.1, ThresholdPolicy.evaluate, if_pos outside]

theorem Slot.asks_drain (slot : Slot) (anchor : Anchor) : (slot.drain anchor).asks = slot.asks := by
  simp only [drain]
  split <;> rfl

theorem Slot.asks_merge (slot : Slot) (rows : Snapshot) (now : Int) : (slot.merge rows now).asks = slot.asks := by
  simp only [merge]
  split <;> rfl

end Agreement

namespace Process

variable {connector : LdapConnector} {parse : String → Option (List PolicyEntry)}

/-- The policies' records are those of the calls. -/
structure Recorded (process : Process) : Prop where
  known : ∀ slot ∈ process.slots, ∀ ask ∈ slot.asks, ask.call < process.calls.length
  listed : ∀ call ∈ process.calls, call.policies.Nodup ∧ ∀ handle ∈ call.policies, handle < process.slots.length
  placed : ∀ call ∈ process.calls, ∀ decision, call.decision = some decision →
    (decision = .allow ↔ call.policies[call.next]? = none)
  agrees : ∀ (k : Nat) (call : Judgement), process.calls[k]? = some call →
    ∀ (handle : Nat) (slot : Slot), process.slots[handle]? = some slot → slot.Agrees handle k call

namespace Recorded

variable {process after : Process}

/-- Steps that ask nothing: policies are built, or go on with what they were asked. -/
theorem quiet (recorded : process.Recorded) (calls : after.calls = process.calls)
    (more : process.slots.length ≤ after.slots.length)
    (slots : ∀ (handle : Nat) (slot : Slot), after.slots[handle]? = some slot →
      (process.slots.length ≤ handle ∧ slot.asks = []) ∨
        ∃ old, process.slots[handle]? = some old ∧ slot.asks = old.asks ∧ slot.policy.config = old.policy.config) :
    after.Recorded := by
  refine ⟨?_, ?_, ?_, ?_⟩
  · intro slot member ask asked
    obtain ⟨handle, found⟩ := List.getElem?_of_mem member
    rw [calls]
    rcases slots handle slot found with ⟨-, none⟩ | ⟨old, before, same, -⟩
    · rw [none] at asked
      cases asked
    · rw [same] at asked
      exact recorded.known old (List.mem_of_getElem? before) ask asked
  · rw [calls]
    intro call member
    obtain ⟨distinct, built⟩ := recorded.listed call member
    exact ⟨distinct, fun handle inside => Nat.lt_of_lt_of_le (built handle inside) more⟩
  · rw [calls]
    exact recorded.placed
  · rw [calls]
    intro k call found handle slot there
    rcases slots handle slot there with ⟨new, none⟩ | ⟨old, before, same, config⟩
    · have away : handle ∉ call.policies := fun member =>
        Nat.not_lt.mpr new ((recorded.listed call (List.mem_of_getElem? found)).2 handle member)
      refine ⟨fun decision answer => ?_, fun _ => by rw [Slot.asksOf, none, List.filter_nil]⟩
      rw [Judgement.answerAt_of_notMem away] at answer
      cases answer
    · exact (recorded.agrees k call found handle old before).congr (by rw [Slot.asksOf, Slot.asksOf, same]) config

theorem build (recorded : process.Recorded) (policies : List ThresholdPolicy) (calls : after.calls = process.calls)
    (slots : after.slots = process.slots ++ policies.map Slot.built) : after.Recorded := by
  refine recorded.quiet calls (by rw [slots, List.length_append]; exact Nat.le_add_right _ _) ?_
  intro handle slot found
  rw [slots] at found
  by_cases inside : handle < process.slots.length
  · rw [List.getElem?_append_left inside] at found
    exact .inr ⟨slot, found, rfl, rfl⟩
  · have new := Nat.le_of_not_lt inside
    rw [List.getElem?_append_right new, List.getElem?_map] at found
    obtain ⟨policy, -, rfl⟩ := Option.map_eq_some_iff.mp found
    exact .inl ⟨new, rfl⟩

/-- A sync leaves a policy's record alone. -/
theorem sync (recorded : process.Recorded) {handle : Nat} {slot next : Slot} (calls : after.calls = process.calls)
    (slots : after.slots = process.slots.set handle next) (there : process.slots[handle]? = some slot)
    (asks : next.asks = slot.asks) (config : next.policy.config = slot.policy.config) : after.Recorded := by
  refine recorded.quiet calls (by rw [slots, List.length_set]) ?_
  intro other later found
  rw [slots] at found
  rcases getElem?_set_cases found with ⟨rfl, rfl⟩ | ⟨-, old⟩
  · exact .inr ⟨slot, there, asks, config⟩
  · exact .inr ⟨later, old, rfl, rfl⟩

/-- A call goes on without a question. -/
theorem turn (recorded : process.Recorded) {k : Nat} {call next : Judgement} (slots : after.slots = process.slots)
    (calls : after.calls = process.calls.set k next) (found : process.calls[k]? = some call)
    (same : next.action = call.action ∧ next.ctx = call.ctx ∧ next.policies = call.policies ∧ next.next = call.next)
    (answers : ∀ handle, next.answerAt handle = call.answerAt handle)
    (placed : ∀ decision, next.decision = some decision → (decision = .allow ↔ call.policies[call.next]? = none)) :
    after.Recorded := by
  obtain ⟨action, ctx, policies, place⟩ := same
  have member := List.mem_of_getElem? found
  refine ⟨?_, ?_, ?_, ?_⟩
  · rw [slots, calls, List.length_set]
    exact recorded.known
  · rw [slots, calls]
    intro other inside
    rcases List.mem_or_eq_of_mem_set inside with old | rfl
    · exact recorded.listed other old
    · rw [policies]
      exact recorded.listed call member
  · rw [calls]
    intro other inside decision decided
    rcases List.mem_or_eq_of_mem_set inside with old | rfl
    · exact recorded.placed other old decision decided
    · rw [policies, place]
      exact placed decision decided
  · rw [slots, calls]
    intro other later now handle slot there
    rcases getElem?_set_cases now with ⟨rfl, rfl⟩ | ⟨-, old⟩
    · exact (recorded.agrees _ call found handle slot there).of_answer action ctx (answers handle)
    · exact recorded.agrees other later old handle slot there

/-- A call asks the next policy of its list. -/
theorem ask (recorded : process.Recorded) {k handle : Nat} {now : Int} {call next : Judgement} {slot asked : Slot}
    {decision : Decision} (slots : after.slots = process.slots.set handle asked)
    (calls : after.calls = process.calls.set k next) (found : process.calls[k]? = some call)
    (there : process.slots[handle]? = some slot) (unasked : call.answerAt handle = none)
    (verdict : slot.evaluate k call.action call.ctx now = (decision, asked))
    (same : next.action = call.action ∧ next.ctx = call.ctx ∧ next.policies = call.policies)
    (answers : ∀ other, next.answerAt other = if other = handle then some decision else call.answerAt other)
    (granted : slot.policy.config.covers call.action.operation = false → decision = .allow)
    (placed : ∀ decision, next.decision = some decision → (decision = .allow ↔ next.policies[next.next]? = none)) :
    after.Recorded := by
  obtain ⟨action, ctx, policies⟩ := same
  have member := List.mem_of_getElem? found
  have asks := Slot.asksOf_evaluate verdict
  have config := evaluate_config verdict
  refine ⟨?_, ?_, ?_, ?_⟩
  · rw [slots, calls, List.length_set]
    intro other inside ask recordedAsk
    rcases List.mem_or_eq_of_mem_set inside with old | rfl
    · exact recorded.known other old ask recordedAsk
    · obtain ⟨bound, -⟩ := List.getElem?_eq_some_iff.mp found
      have mine : ask ∈ other.asksOf ask.call := List.mem_filter.mpr ⟨recordedAsk, decide_eq_true rfl⟩
      rw [asks] at mine
      rcases List.mem_append.mp mine with before | new
      · exact recorded.known slot (List.mem_of_getElem? there) ask (List.mem_of_mem_filter before)
      · split at new
        · rename_i here
          rwa [here.1]
        · cases new
  · rw [slots, calls, List.length_set]
    intro other inside
    rcases List.mem_or_eq_of_mem_set inside with old | rfl
    · exact recorded.listed other old
    · rw [policies]
      exact recorded.listed call member
  · rw [calls]
    intro other inside decision decided
    rcases List.mem_or_eq_of_mem_set inside with old | rfl
    · exact recorded.placed other old decision decided
    · exact placed decision decided
  · rw [slots, calls]
    intro k' later now' handle' slot' there'
    rcases getElem?_set_cases there' with ⟨rfl, rfl⟩ | ⟨away, oldSlot⟩
    · rcases getElem?_set_cases now' with ⟨rfl, rfl⟩ | ⟨other, oldCall⟩
      · have none := (recorded.agrees _ call found _ slot there).unasked unasked
        constructor
        · intro answer given
          rw [answers, if_pos rfl] at given
          cases given
          rw [Slot.Answered, asks, none, config, action, ctx]
          cases covered : slot.policy.config.covers call.action.operation with
          | true => exact .inl ⟨rfl, now, by rw [if_pos ⟨rfl, rfl⟩, List.nil_append]⟩
          | false => exact .inr ⟨rfl, by simp, granted covered⟩
        · intro given
          rw [answers, if_pos rfl] at given
          cases given
      · refine (recorded.agrees k' later oldCall _ slot there).congr ?_ config
        rw [asks, if_neg fun here => other here.1, List.append_nil]
    · rcases getElem?_set_cases now' with ⟨rfl, rfl⟩ | ⟨-, oldCall⟩
      · exact (recorded.agrees _ call found _ slot' oldSlot).of_answer action ctx
          (by rw [answers, if_neg away])
      · exact recorded.agrees k' later oldCall _ slot' oldSlot

end Recorded

theorem Change.recorded {process after : Process} {label : ProcessLabel}
    (change : Change connector parse process label after) (listed : process.Listed) (recorded : process.Recorded) :
    after.Recorded := by
  cases change with
  | idle | turned _ _ | exited _ | closed _ _ | accepted _ _ | dropped _ _ _ _ | spoke _ _ _ _ _ _
  | taskEnded _ _ _ => exact ⟨recorded.known, recorded.listed, recorded.placed, recorded.agrees⟩
  | replaced _ _ _ _ | discarded _ _ _ _ => exact recorded.build _ rfl rfl
  | @opened index frame connection action bind found _ _ _ =>
      have fresh : ∀ handle, (⟨index, frame, action, ⟨bind.identity⟩, connection.policies, 0, none, false⟩ :
          Judgement).answerAt handle = none := by
        intro handle
        simp only [Judgement.answerAt, List.take_zero, List.not_mem_nil, if_false, ite_self]
      refine ⟨?_, ?_, ?_, ?_⟩
      · intro slot member ask asked
        rw [List.length_append]
        exact Nat.lt_of_lt_of_le (recorded.known slot member ask asked) (Nat.le_add_right _ _)
      · intro call member
        rcases List.mem_append.mp member with old | new
        · exact recorded.listed call old
        · rw [List.mem_singleton.mp new]
          exact listed.taken connection (List.mem_of_getElem? found)
      · intro call member decision decided
        rcases List.mem_append.mp member with old | new
        · exact recorded.placed call old decision decided
        · rw [List.mem_singleton.mp new] at decided
          cases decided
      · intro k call now handle slot there
        rcases getElem?_snoc_cases now with old | ⟨rfl, rfl⟩
        · exact recorded.agrees k call old handle slot there
        · refine ⟨fun decision answer => ?_, fun _ => ?_⟩
          · rw [fresh] at answer
            cases answer
          · refine List.filter_eq_nil_iff.mpr fun ask asked mine => ?_
            have before := recorded.known slot (List.mem_of_getElem? there) ask asked
            rw [of_decide_eq_true mine] at before
            exact Nat.lt_irrefl _ before
  | @returned k _ call found undecided exhausted =>
      refine recorded.turn rfl rfl found ⟨rfl, rfl, rfl, rfl⟩ (fun handle => ?_) fun decision decided => ?_
      · simp only [Judgement.answerAt, exhausted, reduceCtorEq, if_false]
      · cases decided
        exact ⟨fun _ => exhausted, fun _ => rfl⟩
  | @passed k handle now call slot asked found undecided next there verdict =>
      have distinct := (recorded.listed call (List.mem_of_getElem? found)).1
      refine recorded.ask rfl rfl found there ((call.answerAt_next next distinct).trans undecided) verdict
        ⟨rfl, rfl, rfl⟩ (call.answerAt_passed undecided next) (fun _ => rfl) fun decision decided => ?_
      rw [undecided] at decided
      cases decided
  | @blocked k handle now call slot asked reason found undecided next there verdict =>
      have distinct := (recorded.listed call (List.mem_of_getElem? found)).1
      refine recorded.ask rfl rfl found there ((call.answerAt_next next distinct).trans undecided) verdict
        ⟨rfl, rfl, rfl⟩ (call.answerAt_blocked undecided next distinct reason) (Slot.evaluate_outside verdict)
        fun decision decided => ?_
      cases decided
      simp only [next, reduceCtorEq]
  | @logged k call _ _ _ found _ _ _ _ _ | @unanswerable k call _ _ found _ _ _ =>
      exact recorded.turn rfl rfl found ⟨rfl, rfl, rfl, rfl⟩ (fun _ => rfl)
        (recorded.placed call (List.mem_of_getElem? found))
  | drained there _ _ _ => exact recorded.sync rfl rfl there (Slot.asks_drain _ _) (drain_config _ _)
  | failed there _ => exact recorded.sync rfl rfl there rfl rfl
  | merged there _ => exact recorded.sync rfl rfl there (Slot.asks_merge _ _ _) (merge_config _ _ _)

end Process

/-- What a later step leaves of a call. -/
structure Judgement.Goes (call later : Judgement) : Prop where
  same : later.connection = call.connection ∧ later.frame = call.frame ∧ later.action = call.action ∧
    later.ctx = call.ctx ∧ later.policies = call.policies
  decided : ∀ decision, call.decision = some decision → later.decision = some decision
  logged : call.logged = true → later.logged = true

theorem Judgement.goes (call : Judgement) : call.Goes call := ⟨⟨rfl, rfl, rfl, rfl, rfl⟩, fun _ => id, id⟩

/-- What a connection has written is what its calls came to. -/
structure Connection.Routed (connector : LdapConnector) (calls : List Judgement) (index : Nat)
    (connection : Connection) : Prop where
  plain : ∀ sent ∈ connection.toUpstream, sent.call = none → connector.decode sent.bytes = .ok none
  forwarded : ∀ sent ∈ connection.toUpstream, ∀ k, sent.call = some k → ∃ call, calls[k]? = some call ∧
    call.connection = index ∧ call.frame = sent.bytes ∧ call.decision = some .allow ∧ call.logged = true
  rejected : ∀ sent ∈ connection.toClient, ∀ k, sent.call = some k → ∃ call reason, calls[k]? = some call ∧
    call.connection = index ∧ connector.buildRejection call.frame reason = .ok sent.bytes ∧
    call.decision = some (.block reason) ∧ call.logged = true
  once : (connection.toUpstream.filterMap Sent.call ++ connection.toClient.filterMap Sent.call).Nodup

namespace Connection.Routed

variable {connector : LdapConnector} {calls : List Judgement} {index : Nat} {connection next : Connection}

theorem grows (routed : connection.Routed connector calls index) {later : List Judgement}
    (growth : Grows Judgement.Goes calls later) : connection.Routed connector later index where
  plain := routed.plain
  forwarded := by
    intro sent member k sentBy
    obtain ⟨call, found, rfl, frame, decided, logged⟩ := routed.forwarded sent member k sentBy
    obtain ⟨now, there, goes⟩ := growth k call found
    exact ⟨now, there, goes.same.1, goes.same.2.1.trans frame, goes.decided _ decided, goes.logged logged⟩
  rejected := by
    intro sent member k sentBy
    obtain ⟨call, reason, found, rfl, built, decided, logged⟩ := routed.rejected sent member k sentBy
    obtain ⟨now, there, goes⟩ := growth k call found
    refine ⟨now, reason, there, goes.same.1, ?_, goes.decided _ decided, goes.logged logged⟩
    rw [goes.same.2.1]
    exact built
  once := routed.once

/-- Frames that no call decided on are passed on. -/
theorem pass (routed : connection.Routed connector calls index)
    (upstream : next.toUpstream = connection.toUpstream ∨ ∃ frame, connector.decode frame = .ok none ∧
      next.toUpstream = connection.toUpstream ++ [⟨frame, none⟩])
    (client : next.toClient = connection.toClient ∨ ∃ frame,
      next.toClient = connection.toClient ++ [⟨frame, none⟩]) : next.Routed connector calls index := by
  have up : ∀ sent ∈ next.toUpstream, sent ∈ connection.toUpstream ∨
      (sent.call = none ∧ connector.decode sent.bytes = .ok none) := by
    intro sent member
    rcases upstream with same | ⟨frame, decoded, same⟩
    · exact .inl (same ▸ member)
    · rw [same] at member
      rcases List.mem_append.mp member with old | new
      · exact .inl old
      · rw [List.mem_singleton.mp new]
        exact .inr ⟨rfl, decoded⟩
  have down : ∀ sent ∈ next.toClient, sent ∈ connection.toClient ∨ sent.call = none := by
    intro sent member
    rcases client with same | ⟨frame, same⟩
    · exact .inl (same ▸ member)
    · rw [same] at member
      rcases List.mem_append.mp member with old | new
      · exact .inl old
      · rw [List.mem_singleton.mp new]
        exact .inr rfl
  refine ⟨?_, ?_, ?_, ?_⟩
  · intro sent member none
    rcases up sent member with old | new
    · exact routed.plain sent old none
    · exact new.2
  · intro sent member k sentBy
    rcases up sent member with old | new
    · exact routed.forwarded sent old k sentBy
    · rw [new.1] at sentBy
      cases sentBy
  · intro sent member k sentBy
    rcases down sent member with old | new
    · exact routed.rejected sent old k sentBy
    · rw [new] at sentBy
      cases sentBy
  · have sameUp : next.toUpstream.filterMap Sent.call = connection.toUpstream.filterMap Sent.call := by
      rcases upstream with same | ⟨frame, -, same⟩
      · rw [same]
      · rw [same, List.filterMap_append]
        exact List.append_nil _
    have sameDown : next.toClient.filterMap Sent.call = connection.toClient.filterMap Sent.call := by
      rcases client with same | ⟨frame, same⟩
      · rw [same]
      · rw [same, List.filterMap_append]
        exact List.append_nil _
    rw [sameUp, sameDown]
    exact routed.once

/-- A call that has not been logged has written nothing. -/
theorem notMem_of_unlogged (routed : connection.Routed connector calls index) {k : Nat} {call : Judgement}
    (found : calls[k]? = some call) (unlogged : call.logged = false) :
    k ∉ connection.toUpstream.filterMap Sent.call ∧ k ∉ connection.toClient.filterMap Sent.call := by
  constructor
  · intro member
    obtain ⟨sent, inside, sentBy⟩ := List.mem_filterMap.mp member
    obtain ⟨other, there, -, -, -, logged⟩ := routed.forwarded sent inside k sentBy
    rw [found] at there
    cases there
    rw [unlogged] at logged
    cases logged
  · intro member
    obtain ⟨sent, inside, sentBy⟩ := List.mem_filterMap.mp member
    obtain ⟨other, _, there, -, -, -, logged⟩ := routed.rejected sent inside k sentBy
    rw [found] at there
    cases there
    rw [unlogged] at logged
    cases logged

/-- The decision of a call is acted on. -/
theorem settle {k : Nat} {call : Judgement} {decision : Decision}
    (routed : connection.Routed connector calls call.connection) (found : calls[k]? = some call)
    (decided : call.decision = some decision) (unlogged : call.logged = false)
    (sent : (decision = .allow ∧ next.toUpstream = connection.toUpstream ++ [⟨call.frame, some k⟩] ∧
        next.toClient = connection.toClient) ∨
      ∃ reason rejection, decision = .block reason ∧ connector.buildRejection call.frame reason = .ok rejection ∧
        next.toUpstream = connection.toUpstream ∧ next.toClient = connection.toClient ++ [⟨rejection, some k⟩]) :
    next.Routed connector (calls.set k { call with logged := true }) call.connection := by
  obtain ⟨inside, -⟩ := List.getElem?_eq_some_iff.mp found
  have there : (calls.set k { call with logged := true })[k]? = some { call with logged := true } :=
    List.getElem?_set_self inside
  have goes : call.Goes { call with logged := true } :=
    ⟨⟨rfl, rfl, rfl, rfl, rfl⟩, fun _ => id, fun _ => rfl⟩
  obtain ⟨notUp, notDown⟩ := routed.notMem_of_unlogged found unlogged
  have kept := routed.grows (.set Judgement.goes found goes)
  have once := routed.once
  rcases sent with ⟨rfl, up, down⟩ | ⟨reason, rejection, rfl, built, up, down⟩
  · refine ⟨?_, ?_, ?_, ?_⟩
    · intro sent member none
      rw [up] at member
      rcases List.mem_append.mp member with old | new
      · exact kept.plain sent old none
      · rw [List.mem_singleton.mp new] at none
        cases none
    · intro sent member k' sentBy
      rw [up] at member
      rcases List.mem_append.mp member with old | new
      · exact kept.forwarded sent old k' sentBy
      · rw [List.mem_singleton.mp new] at sentBy ⊢
        cases sentBy
        exact ⟨_, there, rfl, rfl, decided, rfl⟩
    · rw [down]
      exact kept.rejected
    · have last : [(⟨call.frame, some k⟩ : Sent)].filterMap Sent.call = [k] := rfl
      rw [up, down, List.filterMap_append, last, List.append_assoc]
      refine List.nodup_middle.mpr (List.nodup_cons.mpr ⟨fun member => ?_, once⟩)
      rcases List.mem_append.mp member with before | before
      · exact notUp before
      · exact notDown before
  · refine ⟨?_, ?_, ?_, ?_⟩
    · rw [up]
      exact kept.plain
    · rw [up]
      exact kept.forwarded
    · intro sent member k' sentBy
      rw [down] at member
      rcases List.mem_append.mp member with old | new
      · exact kept.rejected sent old k' sentBy
      · rw [List.mem_singleton.mp new] at sentBy ⊢
        cases sentBy
        exact ⟨_, reason, there, rfl, built, decided, rfl⟩
    · have last : [(⟨rejection, some k⟩ : Sent)].filterMap Sent.call = [k] := rfl
      rw [up, down, List.filterMap_append, last, ← List.append_assoc]
      refine List.nodup_append.mpr ⟨once, List.nodup_singleton k, ?_⟩
      intro old member new last same
      rw [List.mem_singleton.mp last] at same
      rw [same] at member
      rcases List.mem_append.mp member with before | before
      · exact notUp before
      · exact notDown before

end Connection.Routed

namespace Process

variable {connector : LdapConnector} {parse : String → Option (List PolicyEntry)}

variable (connector) in
/-- What a step does to the calls. -/
inductive CallsMove (process : Process) : List Judgement → Prop where
  | kept : CallsMove process process.calls
  | opened {call : Judgement} {connection : Connection}
      (found : process.connections[call.connection]? = some connection) (policies : call.policies = connection.policies)
      (decoded : connector.decode call.frame = .ok (some call.action)) : CallsMove process (process.calls ++ [call])
  | went {k : Nat} {call next : Judgement} (found : process.calls[k]? = some call) (goes : call.Goes next) :
      CallsMove process (process.calls.set k next)

theorem Change.callsMove {process after : Process} {label : ProcessLabel}
    (change : Change connector parse process label after) : CallsMove connector process after.calls := by
  cases change with
  | opened _ found _ _ decoded => exact .opened found rfl decoded
  | returned found undecided _ | blocked found undecided _ _ _ =>
      refine .went found ⟨⟨rfl, rfl, rfl, rfl, rfl⟩, fun decision decided => ?_, id⟩
      rw [undecided] at decided
      cases decided
  | passed found _ _ _ _ => exact .went found ⟨⟨rfl, rfl, rfl, rfl, rfl⟩, fun _ => id, id⟩
  | logged found _ _ _ _ _ | unanswerable found _ _ _ =>
      exact .went found ⟨⟨rfl, rfl, rfl, rfl, rfl⟩, fun _ => id, fun _ => rfl⟩
  | _ => exact .kept

theorem CallsMove.grows {process : Process} {calls : List Judgement} (move : CallsMove connector process calls) :
    Grows Judgement.Goes process.calls calls := by
  cases move with
  | kept => exact .refl Judgement.goes _
  | opened _ _ _ => exact .append Judgement.goes _ _
  | went found goes => exact .set Judgement.goes found goes

/-- A call is one that was there, or the one the step opened. -/
theorem CallsMove.cases {process : Process} {calls : List Judgement} (move : CallsMove connector process calls)
    {call : Judgement} (member : call ∈ calls) :
    (∃ old ∈ process.calls, old.Goes call) ∨ ∃ connection, process.connections[call.connection]? = some connection ∧
      call.policies = connection.policies ∧ connector.decode call.frame = .ok (some call.action) := by
  cases move with
  | kept => exact .inl ⟨call, member, call.goes⟩
  | opened found policies decoded =>
      rcases List.mem_append.mp member with old | new
      · exact .inl ⟨call, old, call.goes⟩
      · rw [List.mem_singleton.mp new]
        exact .inr ⟨_, found, policies, decoded⟩
  | went found goes =>
      rcases List.mem_or_eq_of_mem_set member with old | rfl
      · exact .inl ⟨call, old, call.goes⟩
      · exact .inl ⟨_, List.mem_of_getElem? found, goes⟩

variable (connector) in
/-- Calls, policies and connections fit together. -/
structure Sound (process : Process) : Prop where
  listed : process.Listed
  recorded : process.Recorded
  decoded : ∀ call ∈ process.calls, connector.decode call.frame = .ok (some call.action)
  owned : ∀ call ∈ process.calls, ∃ connection, process.connections[call.connection]? = some connection ∧
    call.policies = connection.policies
  routed : ∀ (index : Nat) (connection : Connection), process.connections[index]? = some connection →
    connection.Routed connector process.calls index

theorem Change.sound {process after : Process} {label : ProcessLabel}
    (change : Change connector parse process label after) (sound : process.Sound connector) :
    after.Sound connector := by
  have move := change.callsMove
  have growth := move.grows
  have extension := change.extends
  refine ⟨change.listed sound.listed, change.recorded sound.listed sound.recorded, ?_, ?_, ?_⟩
  · intro call member
    rcases move.cases member with ⟨old, before, goes⟩ | ⟨_, _, _, decoded⟩
    · rw [goes.same.2.1, goes.same.2.2.1]
      exact sound.decoded old before
    · exact decoded
  · intro call member
    rcases move.cases member with ⟨old, before, goes⟩ | ⟨connection, found, policies, _⟩
    · obtain ⟨connection, found, policies⟩ := sound.owned old before
      obtain ⟨later, now, same⟩ := extension.connections _ connection found
      rw [goes.same.1]
      exact ⟨later, now, goes.same.2.2.2.2.trans (policies.trans same.2.symm)⟩
    · obtain ⟨later, now, same⟩ := extension.connections _ connection found
      exact ⟨later, now, policies.trans same.2.symm⟩
  · intro index connection now
    have kept : ∀ old : Connection, process.connections[index]? = some old →
        old.Routed connector after.calls index := fun old found => (sound.routed index old found).grows growth
    cases change with
    | accepted _ _ =>
        rcases getElem?_snoc_cases now with old | ⟨-, rfl⟩
        · exact kept connection old
        · exact ⟨fun _ member => (by cases member), fun _ member => (by cases member),
            fun _ member => (by cases member),   List.nodup_nil⟩
    | dropped _ found _ _ | opened _ found _ _ _ | unanswerable _ _ _ found =>
        rcases getElem?_set_cases now with ⟨rfl, rfl⟩ | ⟨-, old⟩
        · exact (kept _ found).pass (.inl rfl) (.inl rfl)
        · exact kept connection old
    | spoke found _ _ _ upstream client =>
        rcases getElem?_set_cases now with ⟨rfl, rfl⟩ | ⟨-, old⟩
        · exact (kept _ found).pass upstream client
        · exact kept connection old
    | logged found decided unlogged there _ sent =>
        rcases getElem?_set_cases now with ⟨rfl, rfl⟩ | ⟨-, old⟩
        · exact (sound.routed _ _ there).settle found decided unlogged sent
        · exact kept connection old
    | _ => exact kept connection now

theorem sound_start (configs : List (String × List ThresholdPolicy)) : (start configs).Sound connector := by
  obtain ⟨connections, calls, -, -, -⟩ := start_quiet configs
  have unasked : ∀ slot ∈ (start configs).slots, slot.asks = [] := by
    refine @start_rule (fun process => ∀ slot ∈ process.slots, slot.asks = [])
      (fun _ member => absurd member List.not_mem_nil) ?_ configs
    intro process config none slot member
    rcases List.mem_append.mp member with old | new
    · exact none slot old
    · obtain ⟨policy, -, rfl⟩ := List.mem_map.mp new
      rfl
  refine ⟨listed_start configs, ⟨?_, ?_, ?_, ?_⟩, ?_, ?_, ?_⟩
  · intro slot member ask asked
    rw [unasked slot member] at asked
    cases asked
  · rw [calls]
    exact fun _ member => absurd member List.not_mem_nil
  · rw [calls]
    exact fun _ member => absurd member List.not_mem_nil
  · rw [calls]
    intro k call found
    cases found
  · rw [calls]
    exact fun _ member => absurd member List.not_mem_nil
  · rw [calls]
    exact fun _ member => absurd member List.not_mem_nil
  · rw [connections]
    intro index connection found
    cases found

variable (connector parse) in
theorem always_sound (configs : List (String × List ThresholdPolicy)) (labels : List ProcessLabel) :
    Always (step connector parse) (Sound connector) (start configs) labels :=
  always_of_step (sound_start configs) fun process label sound => (process.change label).sound sound

/-- A call that allows has the leave of every policy of its list. -/
theorem Recorded.allowed {process : Process} (recorded : process.Recorded) {k : Nat} {call : Judgement}
    (found : process.calls[k]? = some call) (decided : call.decision = some .allow) {handle : Nat}
    (member : handle ∈ call.policies) :
    ∃ slot, process.slots[handle]? = some slot ∧ slot.Answered k call.action call.ctx .allow := by
  have called := List.mem_of_getElem? found
  have there := List.getElem?_eq_getElem ((recorded.listed call called).2 handle member)
  have exhausted := (recorded.placed call called .allow decided).mp rfl
  refine ⟨_, there, (recorded.agrees k call found handle _ there).answered .allow ?_⟩
  rw [Judgement.answerAt, List.take_of_length_le (List.getElem?_eq_none_iff.mp exhausted), if_pos member]

/-- A call that blocks was refused by one policy of its list, for the reason it gives. -/
theorem Recorded.refused {process : Process} (recorded : process.Recorded) {k : Nat} {call : Judgement}
    {reason : String} (found : process.calls[k]? = some call) (decided : call.decision = some (.block reason)) :
    ∃ handle slot, handle ∈ call.policies ∧ process.slots[handle]? = some slot ∧
      slot.Answered k call.action call.ctx (.block reason) := by
  have called := List.mem_of_getElem? found
  obtain ⟨distinct, built⟩ := recorded.listed call called
  cases asked : call.policies[call.next]? with
  | none => cases (recorded.placed call called _ decided).mpr asked
  | some handle =>
      have member := List.mem_of_getElem? asked
      have there := List.getElem?_eq_getElem (built handle member)
      refine ⟨handle, _, member, there, (recorded.agrees k call found handle _ there).answered _ ?_⟩
      rw [call.answerAt_next asked distinct, decided]

variable (connector) in
/-- What a connection has written is what its policies decided. -/
structure Mediated (process : Process) (index : Nat) (connection : Connection) : Prop where
  plain : ∀ sent ∈ connection.toUpstream, sent.call = none → connector.decode sent.bytes = .ok none
  allowed : ∀ sent ∈ connection.toUpstream, ∀ k, sent.call = some k → ∃ call, process.calls[k]? = some call ∧
    call.connection = index ∧ call.frame = sent.bytes ∧ connector.decode sent.bytes = .ok (some call.action) ∧
    ∀ handle ∈ connection.policies, ∃ slot, process.slots[handle]? = some slot ∧
      slot.Answered k call.action call.ctx .allow
  refused : ∀ sent ∈ connection.toClient, ∀ k, sent.call = some k → ∃ call reason handle slot,
    process.calls[k]? = some call ∧ call.connection = index ∧
    connector.buildRejection call.frame reason = .ok sent.bytes ∧ handle ∈ connection.policies ∧
    process.slots[handle]? = some slot ∧ slot.Answered k call.action call.ctx (.block reason)
  once : (connection.toUpstream.filterMap Sent.call ++ connection.toClient.filterMap Sent.call).Nodup

theorem Sound.mediated {process : Process} (sound : process.Sound connector) {index : Nat} {connection : Connection}
    (found : process.connections[index]? = some connection) : process.Mediated connector index connection := by
  have routed := sound.routed index connection found
  have owner : ∀ call ∈ process.calls, call.connection = index → call.policies = connection.policies := by
    intro call member here
    obtain ⟨other, there, policies⟩ := sound.owned call member
    rw [here, found] at there
    cases there
    exact policies
  refine ⟨routed.plain, ?_, ?_, routed.once⟩
  · intro sent member k sentBy
    obtain ⟨call, called, here, frame, decided, -⟩ := routed.forwarded sent member k sentBy
    have inside := List.mem_of_getElem? called
    refine ⟨call, called, here, frame, frame ▸ sound.decoded call inside, fun handle listed => ?_⟩
    rw [← owner call inside here] at listed
    exact sound.recorded.allowed called decided listed
  · intro sent member k sentBy
    obtain ⟨call, reason, called, here, built, decided, -⟩ := routed.rejected sent member k sentBy
    obtain ⟨handle, slot, listed, there, answered⟩ := sound.recorded.refused called decided
    rw [owner call (List.mem_of_getElem? called) here] at listed
    exact ⟨call, reason, handle, slot, called, here, built, listed, there, answered⟩

/-- A connection sends its request under the minute policy, and once more after a reload has
    closed the entry to new connections. -/
def requests : List ProcessLabel :=
  [.accept 0 "10.0.0.1", .receive 0 Relay.deleteFrame, .advance 0 5, .hangup,
    .load (some "closed") fun _ => .absent, .advance 0 6, .log 0, .receive 0 Relay.deleteFrame, .advance 1 7,
    .advance 1 8, .log 1]

/-- What it has written then. -/
def requester : Connection where
  entry := 0
  policies := [0]
  bind := .start "10.0.0.1"
  judging := none
  toUpstream := [⟨Relay.deleteFrame, some 0⟩, ⟨Relay.deleteFrame, some 1⟩]
  toClient := []
  closed := false

/-- The process after that. -/
def requested : Process :=
  requests.foldl (step Relay.deleteConnector twoFiles)
    (start [("ldap.toml", [⟨ThresholdPolicy.minuteConfig, .empty, none⟩])])

end Process

end AiProtect
