import AiProtect.Proxy.Attribution

/-! # The connections of the process

`Process` knows the frames of a connection, and `Relay` the bytes: where frames begin and end,
the StartTLS exchange, partial writes, and who holds the lock of the client's side. Here the
two are put side by side. While one connection is relayed byte by byte, the process goes
through the steps for its frames, and other connections, reloads and syncs go on around it;
the relay sees of these only what they do to the policies.

Every such run keeps the two in step: same identity, same policies, the same frames passed on
and rejected. So what is proved of the runs of the process holds of relayed bytes.
-/

namespace AiProtect

open Places Runs

namespace Process

variable {connector : LdapConnector} {parse : String → Option (List PolicyEntry)}

/-- The policies that these handles stand for. -/
def Holds (process : Process) (handles : List Nat) (policies : List ThresholdPolicy) : Prop :=
  handles.map (fun handle => process.slots[handle]?.map Slot.policy) = policies.map some

/-- The turns of a call, one reading of the clock for each. -/
def turnsAt (k : Nat) (clock : Nat → Int) (next count : Nat) : List ProcessLabel :=
  (List.range' next count).map fun place => .advance k (clock place)

theorem foldl_turns_succ (process : Process) (k : Nat) (clock : Nat → Int) (next count : Nat) :
    (turnsAt k clock next (count + 1)).foldl (step connector parse) process =
      (turnsAt k clock (next + 1) count).foldl (step connector parse) (process.advance k (clock next)) := by
  rw [turnsAt, List.range'_succ, List.map_cons, List.foldl_cons]
  rfl

/-- Once a call is decided, it has no turns left to take. -/
theorem foldl_turns_decided {process : Process} {k : Nat} {call : Judgement} {decision : Decision}
    (found : process.calls[k]? = some call) (decided : call.decision = some decision) (clock : Nat → Int)
    (next count : Nat) : (turnsAt k clock next count).foldl (step connector parse) process = process := by
  induction count generalizing next with
  | zero => rfl
  | succ count ih =>
      have idle : process.advance k (clock next) = process := by simp only [advance, found, decided]
      rw [foldl_turns_succ, idle]
      exact ih (next + 1)

theorem holds_cons {process : Process} {handle : Nat} {handles : List Nat} {policies : List ThresholdPolicy}
    (holds : process.Holds (handle :: handles) policies) : ∃ slot others, policies = slot.policy :: others ∧
      process.slots[handle]? = some slot ∧ process.Holds handles others := by
  cases policies with
  | nil => cases holds
  | cons policy others =>
      simp only [Holds, List.map_cons, List.cons.injEq] at holds
      obtain ⟨slot, there, rfl⟩ := Option.map_eq_some_iff.mp holds.1
      exact ⟨slot, others, rfl, there, holds.2⟩

theorem holds_of_cons {process : Process} {handle : Nat} {handles : List Nat} {slot : Slot}
    {others : List ThresholdPolicy} (there : process.slots[handle]? = some slot)
    (holds : process.Holds handles others) : process.Holds (handle :: handles) (slot.policy :: others) := by
  rw [Holds, List.map_cons, List.map_cons, there, Option.map_some, holds]

/-- Handles stand for the same policies as long as their slots are not touched. -/
theorem Holds.of_slots {process after : Process} {handles : List Nat} {policies : List ThresholdPolicy}
    (holds : process.Holds handles policies)
    (same : ∀ handle ∈ handles, after.slots[handle]? = process.slots[handle]?) : after.Holds handles policies := by
  rw [Holds, ← holds]
  exact List.map_congr_left fun handle member => by rw [same handle member]

/-- What a call that nothing interrupts comes to, from one of its turns on. -/
structure Judged (process final : Process) (k : Nat) (call : Judgement) (handles : List Nat)
    (result : Decision × List ThresholdPolicy) : Prop where
  calls : ∃ next, final.calls = process.calls.set k { call with next, decision := some result.1 }
  connections : final.connections = process.connections
  policies : final.Holds handles result.2
  elsewhere : ∀ handle, handle ∉ handles → final.slots[handle]? = process.slots[handle]?

/-- A call whose turns nothing interrupts is `evaluate_all` on the policies it has yet to ask. -/
theorem judged_of_turns {handles : List Nat} {process : Process} {k : Nat} {call : Judgement}
    {policies : List ThresholdPolicy} (found : process.calls[k]? = some call) (undecided : call.decision = none)
    (rest : call.policies.drop call.next = handles) (distinct : handles.Nodup) (holds : process.Holds handles policies)
    (clock : Nat → Int) :
    Judged process ((turnsAt k clock call.next (handles.length + 1)).foldl (step connector parse) process) k call
      handles (evaluateAll call.action call.ctx
        (policies.mapIdx fun place policy => (policy, clock (call.next + place)))) := by
  have inside := (List.getElem?_eq_some_iff.mp found).1
  induction handles generalizing process call policies with
  | nil =>
      obtain rfl : policies = [] := List.map_eq_nil_iff.mp holds.symm
      have exhausted : call.policies[call.next]? = none := by
        rw [List.getElem?_eq_none_iff]
        exact List.drop_eq_nil_iff.mp rest
      have result : process.advance k (clock call.next) =
          { process with calls := process.calls.set k { call with decision := some .allow } } := by
        simp only [advance, found, undecided, exhausted]
      rw [List.length_nil, foldl_turns_succ, result]
      exact ⟨⟨call.next, rfl⟩, rfl, rfl, fun _ _ => rfl⟩
  | cons handle handles ih =>
      obtain ⟨slot, others, rfl, there, remaining⟩ := holds_cons holds
      obtain ⟨fresh, unlike⟩ := List.nodup_cons.mp distinct
      have within : call.next < call.policies.length := by
        by_contra beyond
        rw [List.drop_eq_nil_of_le (Nat.le_of_not_lt beyond)] at rest
        cases rest
      rw [List.drop_eq_getElem_cons within, List.cons.injEq] at rest
      have asked : call.policies[call.next]? = some handle := by
        rw [List.getElem?_eq_getElem within, rest.1]
      have bound := (List.getElem?_eq_some_iff.mp there).1
      rcases verdict : slot.evaluate k call.action call.ctx (clock call.next) with ⟨decision, after⟩
      have policy : slot.policy.evaluate call.action call.ctx (clock call.next) = (decision, after.policy) := by
        simp only [Slot.evaluate, Prod.mk.injEq] at verdict
        rw [← verdict.1, ← verdict.2]
      -- The slot of the first handle changes, and the others are asked later or not at all.
      have apart : ∀ other ∈ handles, (process.slots.set handle after)[other]? = process.slots[other]? := by
        intro other member
        refine List.getElem?_set_ne ?_
        rintro rfl
        exact fresh member
      have kept : ∀ other, other ∉ handle :: handles →
          (process.slots.set handle after)[other]? = process.slots[other]? := by
        intro other absent
        refine List.getElem?_set_ne ?_
        rintro rfl
        exact absent List.mem_cons_self
      rw [List.length_cons, foldl_turns_succ, List.mapIdx_cons]
      simp only [evaluateAll, Policy.evaluate, Nat.add_zero, policy]
      cases decision with
      | block reason =>
          have result : process.advance k (clock call.next) = { process with
              slots := process.slots.set handle after
              calls := process.calls.set k { call with decision := some (.block reason) } } := by
            simp only [advance, found, undecided, asked, there, verdict]
          rw [result, foldl_turns_decided (List.getElem?_set_self inside) rfl]
          refine ⟨⟨call.next, rfl⟩, rfl, ?_, kept⟩
          have unread : ∀ readings : Nat → Int,
              (others.mapIdx fun place policy => (policy, readings place)).map Prod.fst = others := by
            intro readings
            refine List.ext_getElem (by simp) fun place _ _ => (by simp)
          rw [unread]
          exact holds_of_cons (List.getElem?_set_self bound) (remaining.of_slots apart)
      | allow =>
          have result : process.advance k (clock call.next) = { process with
              slots := process.slots.set handle after
              calls := process.calls.set k { call with next := call.next + 1 } } := by
            simp only [advance, found, undecided, asked, there, verdict]
          have later := @ih { process with
              slots := process.slots.set handle after
              calls := process.calls.set k { call with next := call.next + 1 } }
            { call with next := call.next + 1 } others (List.getElem?_set_self inside) undecided rest.2 unlike
            (remaining.of_slots apart) (by rw [List.length_set]; exact inside)
          have shifted : (others.mapIdx fun place policy => (policy, clock (call.next + (place + 1)))) =
              others.mapIdx fun place policy => (policy, clock (call.next + 1 + place)) := by
            simp only [Nat.add_assoc, Nat.add_comm 1]
          rw [result, shifted]
          obtain ⟨⟨next, calls⟩, connections, policies, elsewhere⟩ := later
          refine ⟨⟨next, ?_⟩, connections, ?_, fun other absent => ?_⟩
          · rw [calls]
            simp only [List.set_set]
          · refine holds_of_cons ?_ policies
            rw [elsewhere handle fresh]
            exact List.getElem?_set_self bound
          · rw [elsewhere other fun member => absent (List.mem_cons_of_mem _ member)]
            exact kept other absent

variable (connector) in
/-- The connection of the process is the one that is relayed. -/
structure Shadows (process : Process) (index : Nat) (relay : Relay ThresholdPolicy) (connection : Connection) :
    Prop where
  found : process.connections[index]? = some connection
  bind : connection.bind = relay.bind
  free : connection.judging = none
  ended : connection.closed = relay.ended
  policies : relay.ended = false → process.Holds connection.policies relay.policies
  upstream : connection.toUpstream.map Sent.bytes = (relay.handled.filter Handled.forwards).map Handled.frame
  rejections : (connection.toClient.filter fun sent => sent.call.isSome).map Sent.bytes =
    relay.handled.filterMap (Handled.rejection connector)
  responses : (connection.toClient.filter fun sent => sent.call.isNone).map Sent.bytes = relay.responses

namespace Shadows

variable {process : Process} {index : Nat} {relay : Relay ThresholdPolicy} {connection : Connection}

/-- Steps that only move bytes change nothing the process knows of. -/
theorem same (shadows : Shadows connector process index relay connection) {next : Relay ThresholdPolicy}
    (bind : next.bind = relay.bind) (ended : next.ended = relay.ended) (policies : next.policies = relay.policies)
    (handled : next.handled = relay.handled) (responses : next.responses = relay.responses) :
    Shadows connector process index next connection where
  found := shadows.found
  bind := shadows.bind.trans bind.symm
  free := shadows.free
  ended := shadows.ended.trans ended.symm
  policies := by
    rw [ended, policies]
    exact shadows.policies
  upstream := by
    rw [handled]
    exact shadows.upstream
  rejections := by
    rw [handled]
    exact shadows.rejections
  responses := shadows.responses.trans responses.symm

/-- The relay ends, and the connection is dropped. -/
theorem stopped (shadows : Shadows connector process index relay connection) (going : relay.ended = false)
    {next : Relay ThresholdPolicy} (bind : next.bind = relay.bind) (ended : next.ended = true)
    (handled : next.handled = relay.handled) (responses : next.responses = relay.responses) :
    Shadows connector (process.stop index) index next { connection with judging := none, closed := true } := by
  have ready : ¬ (connection.closed = true ∨ connection.judging.isSome = true) := by
    rw [shadows.ended, going, shadows.free]
    simp
  have inside := (List.getElem?_eq_some_iff.mp shadows.found).1
  simp only [stop, shadows.found, if_neg ready, drop]
  refine ⟨List.getElem?_set_self inside, shadows.bind.trans bind.symm, rfl, ended.symm, ?_, ?_, ?_, ?_⟩
  · rw [ended]
    exact fun no => (by cases no)
  · rw [handled]
    exact shadows.upstream
  · rw [handled]
    exact shadows.rejections
  · exact shadows.responses.trans responses.symm

/-- A frame of the client is handled: it is passed on, or its rejection is, or neither. -/
theorem handled (shadows : Shadows connector process index relay connection) {after : Process}
    {next : Relay ThresholdPolicy} {later : Connection} {handled : Handled ThresholdPolicy}
    (found : after.connections[index]? = some later) (bind : later.bind = next.bind) (free : later.judging = none)
    (ended : later.closed = next.ended) (policies : next.ended = false → after.Holds later.policies next.policies)
    (more : next.handled = relay.handled ++ [handled]) (responses : next.responses = relay.responses)
    (upstream : later.toUpstream.map Sent.bytes =
      connection.toUpstream.map Sent.bytes ++ if handled.forwards = true then [handled.frame] else [])
    (client : ∃ sent, later.toClient = connection.toClient ++ sent ∧
      (∀ rejection ∈ sent, rejection.call.isSome = true) ∧ sent.map Sent.bytes = (handled.rejection connector).toList) :
    Shadows connector after index next later where
  found := found
  bind := bind
  free := free
  ended := ended
  policies := policies
  upstream := by
    rw [upstream, shadows.upstream, more, List.filter_append, List.map_append]
    by_cases passes : handled.forwards = true
    · rw [if_pos passes, List.filter_cons_of_pos passes, List.filter_nil, List.map_singleton]
    · rw [if_neg passes, List.filter_cons_of_neg passes, List.filter_nil, List.map_nil]
  rejections := by
    obtain ⟨sent, written, calls, bytes⟩ := client
    have one : List.filterMap (Handled.rejection connector) [handled] = (handled.rejection connector).toList := by
      cases rejection : handled.rejection connector with
      | none => exact List.filterMap_cons_none rejection
      | some _ => exact List.filterMap_cons_some rejection
    rw [written, List.filter_append, List.filter_eq_self.mpr calls, List.map_append, bytes, shadows.rejections, more,
      List.filterMap_append, one]
  responses := by
    obtain ⟨sent, written, calls, bytes⟩ := client
    have none_ : sent.filter (fun sent => sent.call.isNone) = [] := by
      rw [List.filter_eq_nil_iff]
      intro rejection member nobody
      have somebody := calls rejection member
      rw [Option.isSome_iff_ne_none] at somebody
      exact somebody (Option.isNone_iff_eq_none.mp nobody)
    rw [written, List.filter_append, none_, List.append_nil, shadows.responses, responses]

end Shadows

/-- The steps of the process for a frame of the client. -/
def judge (process : Process) (index : Nat) (relay : Relay ThresholdPolicy) (frame : Bytes) (clock : Nat → Int) :
    List ProcessLabel :=
  .receive index frame ::
    (turnsAt process.calls.length clock 0 (relay.policies.length + 1) ++ [.log process.calls.length])

/-- A frame that begins no call leaves nothing to do. -/
theorem foldl_turns_missing {process : Process} {k : Nat} (missing : process.calls[k]? = none) (clock : Nat → Int)
    (next count : Nat) :
    (turnsAt k clock next count ++ [ProcessLabel.log k]).foldl (step connector parse) process = process := by
  induction count generalizing next with
  | zero =>
      change process.log connector k = process
      simp only [log, missing]
  | succ count ih =>
      have idle : process.advance k (clock next) = process := by simp only [advance, missing]
      rw [List.foldl_append, foldl_turns_succ, idle, ← List.foldl_append]
      exact ih (next + 1)

/-- The connection of a frame that has been read, and of which no call is made. -/
theorem Shadows.silent {process after : Process} {index : Nat} {relay next : Relay ThresholdPolicy}
    {connection later : Connection} {handled : Handled ThresholdPolicy}
    (shadows : Shadows connector process index relay connection) (found : after.connections[index]? = some later)
    (bind : later.bind = next.bind) (free : later.judging = none) (ended : later.closed = next.ended)
    (policies : next.ended = false → after.Holds later.policies next.policies)
    (more : next.handled = relay.handled ++ [handled]) (responses : next.responses = relay.responses)
    (upstream : later.toUpstream.map Sent.bytes =
      connection.toUpstream.map Sent.bytes ++ if handled.forwards = true then [handled.frame] else [])
    (client : later.toClient = connection.toClient) (unanswered : handled.rejection connector = none) :
    Shadows connector after index next later := by
  refine shadows.handled found bind free ended policies more responses upstream ⟨[], ?_, ?_, ?_⟩
  · rw [client, List.append_nil]
  · exact fun _ member => absurd member List.not_mem_nil
  · rw [unanswered]
    rfl

variable (connector) in
/-- The frame is refused, and there is no telling the client. -/
def unanswerable (frame : Bytes) : Decision → Bool
  | .allow => false
  | .block reason => (connector.buildRejection frame reason).toOption.isNone

/-- The decision on a frame is logged, and carried out by both. -/
theorem shadows_log {process final : Process} {index k : Nat} {relay next : Relay ThresholdPolicy}
    {connection : Connection} (shadows : Shadows connector process index relay connection) (going : relay.ended = false)
    {call : Judgement} {asked : PolicyCall ThresholdPolicy} (called : final.calls[k]? = some call)
    (unlogged : call.logged = false) (mine : call.connection = index) (decided : call.decision = some asked.decision)
    {bind : BindState} (there : final.connections[index]? = some { connection with bind, judging := some k })
    (policies : final.Holds connection.policies next.policies) (same : next.bind = bind)
    (more : next.handled = relay.handled ++ [⟨call.frame, .judged asked⟩])
    (responses : next.responses = relay.responses)
    (ended : next.ended = unanswerable connector call.frame asked.decision) :
    ∃ later, Shadows connector (final.log connector k) index next later ∧ later.policies = connection.policies := by
  have bound := (List.getElem?_eq_some_iff.mp there).1
  have open_ : connection.closed = false := shadows.ended.trans going
  cases decision : asked.decision with
  | allow =>
      rw [decision] at ended decided
      simp only [log, called, decided, unlogged, mine, there]
      have passes : (⟨call.frame, .judged asked⟩ : Handled ThresholdPolicy).forwards = true := by
        simp only [Handled.forwards, decision, Decision.isAllow_allow]
      refine ⟨_, shadows.silent (List.getElem?_set_self bound) same.symm rfl (open_.trans ended.symm)
        (fun _ => policies) more responses ?_ rfl (Handled.rejection_of_forwards passes), rfl⟩
      rw [if_pos passes]
      exact List.map_append
  | block reason =>
      have stays : ¬ (⟨call.frame, .judged asked⟩ : Handled ThresholdPolicy).forwards = true := by
        simp only [Handled.forwards, decision, Decision.isAllow_block, Bool.false_eq_true, not_false_eq_true]
      have answer : (⟨call.frame, .judged asked⟩ : Handled ThresholdPolicy).rejection connector =
          (connector.buildRejection call.frame reason).toOption := by
        simp only [Handled.rejection, Handled.blockedFor, decision, Option.bind_some]
      rw [decision] at ended decided
      cases built : connector.buildRejection call.frame reason with
      | error text =>
          rw [built] at answer
          simp only [unanswerable, built] at ended
          simp only [log, called, decided, unlogged, mine, there, built]
          refine ⟨_, shadows.silent (List.getElem?_set_self bound) same.symm rfl ended.symm (fun no => ?_) more
            responses ?_ rfl answer, rfl⟩
          · rw [ended] at no
            cases no
          · rw [if_neg stays]
            exact (List.append_nil _).symm
      | ok rejection =>
          rw [built] at answer
          simp only [unanswerable, built] at ended
          simp only [log, called, decided, unlogged, mine, there, built]
          refine ⟨_, shadows.handled (List.getElem?_set_self bound) same.symm rfl (open_.trans ended.symm)
            (fun _ => policies) more responses ?_ ⟨[⟨rejection, some k⟩], rfl, ?_, ?_⟩, rfl⟩
          · rw [if_neg stays]
            exact (List.append_nil _).symm
          · intro sent member
            rw [List.mem_singleton.mp member]
            rfl
          · rw [answer]
            rfl

theorem shadows_judge {process : Process} {index : Nat} {relay : Relay ThresholdPolicy} {connection : Connection}
    (shadows : Shadows connector process index relay connection) (distinct : connection.policies.Nodup)
    (going : relay.ended = false) (idle : relay.current = none) (frame : Bytes) (clock : Nat → Int) :
    ∃ later, Shadows connector ((process.judge index relay frame clock).foldl (step connector parse) process) index
      (relay.handleClientFrame connector frame clock) later ∧ later.policies = connection.policies := by
  have ready : ¬ (connection.closed = true ∨ connection.judging.isSome = true) := by
    rw [shadows.ended, going, shadows.free]
    simp
  have inside := (List.getElem?_eq_some_iff.mp shadows.found).1
  have missing : process.calls[process.calls.length]? = none := List.getElem?_eq_none (Nat.le_refl _)
  have added : ∀ next : Relay ThresholdPolicy, ∀ one : Handled ThresholdPolicy, next.done = relay.done →
      next.current = some one → next.handled = relay.handled ++ [one] := by
    intro next one done current
    rw [Relay.handled, Relay.handled, done, current, idle, Option.toList_none, List.append_nil, Option.toList_some]
  have begun : ∀ rest, (ProcessLabel.receive index frame :: rest).foldl (step connector parse) process =
      rest.foldl (step connector parse) (process.receive connector index frame) := fun _ => rfl
  rw [judge, begun]
  simp only [Relay.handleClientFrame, receive, shadows.found, if_neg ready]
  cases claims : connector.bindRequest frame with
  | error text =>
      simp only
      rw [foldl_turns_missing]
      · refine ⟨_, shadows.silent (List.getElem?_set_self inside) shadows.bind rfl rfl (fun no => (by cases no))
          (added _ ⟨frame, .undecodable⟩ rfl rfl) rfl ?_ rfl rfl, rfl⟩
        exact (List.append_nil _).symm
      · exact missing
  | ok claim =>
      have staged : connection.bind.stage claim = relay.bind.stage claim := by rw [shadows.bind]
      simp only
      cases decoded : connector.decode frame with
      | error text =>
          simp only
          rw [foldl_turns_missing]
          · refine ⟨_, shadows.silent (List.getElem?_set_self inside) staged rfl rfl (fun no => (by cases no))
              (added _ ⟨frame, .undecodable⟩ rfl rfl) rfl ?_ rfl rfl, rfl⟩
            exact (List.append_nil _).symm
          · exact missing
      | ok action =>
          cases action with
          | none =>
              simp only
              rw [foldl_turns_missing]
              · refine ⟨_, shadows.silent (List.getElem?_set_self inside) staged shadows.free shadows.ended
                  shadows.policies (added _ ⟨frame, .unpoliced⟩ rfl rfl) rfl ?_ rfl rfl, rfl⟩
                exact List.map_append
              · exact missing
          | some action =>
              simp only
              have holds := shadows.policies going
              have count : relay.policies.length = connection.policies.length := by
                simpa only [List.length_map] using (congrArg List.length holds).symm
              have judged := @judged_of_turns connector parse connection.policies { process with
                  connections := process.connections.set index
                    { connection with bind := connection.bind.stage claim, judging := some process.calls.length }
                  calls := process.calls ++ [⟨index, frame, action, ⟨(connection.bind.stage claim).identity⟩,
                    connection.policies, 0, none, false⟩] }
                process.calls.length _ relay.policies (getElem?_snoc_self _ _) rfl List.drop_zero distinct holds clock
              simp only [Nat.zero_add, staged] at judged
              rw [List.foldl_append, count]
              simp only [staged]
              generalize (turnsAt process.calls.length clock 0 (connection.policies.length + 1)).foldl
                (step connector parse) _ = final at judged ⊢
              obtain ⟨⟨next, calls⟩, connections, policies, -⟩ := judged
              have called := congrArg (fun calls : List Judgement => calls[process.calls.length]?) calls
              simp only [List.getElem?_set_self (show process.calls.length < (process.calls ++ [_]).length by simp)]
                at called
              have there := congrArg (fun connections : List Connection => connections[index]?) connections
              simp only [List.getElem?_set_self inside] at there
              change ∃ later, Shadows connector (final.log connector process.calls.length) index _ later ∧ _
              -- The relay asks its policies in one go, and the process has just done so in turns.
              generalize ran : evaluateAll action ⟨(relay.bind.stage claim).identity⟩
                (relay.policies.mapIdx fun place policy => (policy, clock place)) = result at policies called ⊢
              obtain ⟨decision, after⟩ := result
              generalize verdict : (⟨action, ⟨(relay.bind.stage claim).identity⟩,
                relay.policies.mapIdx fun place policy => (policy, clock place)⟩ : PolicyCall ThresholdPolicy) = asked
              have decides : asked.decision = decision := by rw [← verdict, PolicyCall.decision, ran]
              have carried : ∀ relayed : Relay ThresholdPolicy, relayed.policies = after →
                  relayed.bind = relay.bind.stage claim → relayed.done = relay.done →
                  relayed.current = some ⟨frame, .judged asked⟩ → relayed.responses = relay.responses →
                  relayed.ended = unanswerable connector frame decision →
                  ∃ later, Shadows connector (final.log connector process.calls.length) index relayed later ∧
                    later.policies = connection.policies := by
                rintro relayed rfl bind done current responses ended
                rw [← decides] at ended called
                exact shadows_log shadows going called rfl rfl rfl there policies bind (added _ _ done current)
                  responses ended
              cases decision with
              | allow => exact carried _ rfl rfl rfl rfl rfl going
              | block reason =>
                  cases built : connector.buildRejection frame reason with
                  | error text =>
                      simp only [built]
                      refine carried _ rfl rfl rfl rfl rfl ?_
                      rw [unanswerable, built]
                      rfl
                  | ok rejection =>
                      simp only [built]
                      refine carried _ rfl rfl rfl rfl rfl ?_
                      rw [unanswerable, built]
                      exact going

theorem shadows_respond {process : Process} {index : Nat} {relay : Relay ThresholdPolicy} {connection : Connection}
    (shadows : Shadows connector process index relay connection) (going : relay.ended = false) (frame : Bytes)
    {next : Relay ThresholdPolicy} (handled : next.handled = relay.handled) (policies : next.policies = relay.policies)
    (outcome : match resolvePendingBind connector relay.bind frame with
      | .error _ => next.bind = relay.bind ∧ next.ended = true ∧ next.responses = relay.responses
      | .ok bind => next.bind = bind ∧ next.ended = relay.ended ∧ next.responses = relay.responses ++ [frame]) :
    ∃ later, Shadows connector (process.respond connector index frame) index next later ∧
      later.policies = connection.policies := by
  have ready : ¬ (connection.closed = true ∨ connection.judging.isSome = true) := by
    rw [shadows.ended, going, shadows.free]
    simp
  have inside := (List.getElem?_eq_some_iff.mp shadows.found).1
  simp only [respond, shadows.found, if_neg ready, shadows.bind]
  cases resolved : resolvePendingBind connector relay.bind frame with
  | error text =>
      simp only [resolved] at outcome ⊢
      obtain ⟨bind, ended, responses⟩ := outcome
      refine ⟨_, ⟨List.getElem?_set_self inside, shadows.bind.trans bind.symm, rfl, ended.symm, ?_, ?_, ?_, ?_⟩, rfl⟩
      · rw [ended]
        exact fun no => (by cases no)
      · rw [handled]
        exact shadows.upstream
      · rw [handled]
        exact shadows.rejections
      · exact shadows.responses.trans responses.symm
  | ok bind =>
      simp only [resolved] at outcome ⊢
      obtain ⟨same, ended, responses⟩ := outcome
      refine ⟨_, ⟨List.getElem?_set_self inside, same.symm, shadows.free, shadows.ended.trans ended.symm, ?_, ?_, ?_,
        ?_⟩, rfl⟩
      · rw [ended, policies]
        exact shadows.policies
      · rw [handled]
        exact shadows.upstream
      · rw [handled, ← shadows.rejections]
        simp
      · rw [responses, ← shadows.responses]
        simp

end Process

namespace Relay

/-- The steps of a connection that handle no frame. -/
def movesBytes : RelayLabel ThresholdPolicy → Bool
  | .peek | .greet _ | .forward _ | .reject _ | .respond _ | .lock _ | .stop => true
  | .request _ | .response | .elsewhere _ => false

theorem finish_handled (relay : Relay ThresholdPolicy) : relay.finish.handled = relay.handled := by
  simp only [finish, handled, Option.toList_none, List.append_nil]

/-- They leave the identity, the policies and the frames alone. -/
theorem step_of_movesBytes {connector : LdapConnector} {listener : Listener} (relay : Relay ThresholdPolicy)
    {label : RelayLabel ThresholdPolicy} (moves : movesBytes label = true) :
    (relay.step connector listener label).bind = relay.bind ∧
      (relay.step connector listener label).policies = relay.policies ∧
      (relay.step connector listener label).handled = relay.handled ∧
      (relay.step connector listener label).responses = relay.responses := by
  simp only [step]
  split
  · exact ⟨rfl, rfl, rfl, rfl⟩
  · cases label with
    | request _ | response | elsewhere _ => cases moves
    | peek =>
        simp only [peek]
        repeat' split
        all_goals exact ⟨rfl, rfl, rfl, rfl⟩
    | greet count =>
        simp only [greet]
        repeat' split
        all_goals exact ⟨rfl, rfl, rfl, rfl⟩
    | forward count =>
        simp only [forward]
        split
        · exact ⟨rfl, rfl, rfl, rfl⟩
        · split
          · split
            · exact ⟨rfl, rfl, finish_handled _, rfl⟩
            · exact ⟨rfl, rfl, rfl, rfl⟩
          · exact ⟨rfl, rfl, rfl, rfl⟩
    | reject count =>
        simp only [reject]
        split
        · split
          · exact ⟨rfl, rfl, finish_handled _, rfl⟩
          · exact ⟨rfl, rfl, rfl, rfl⟩
        · exact ⟨rfl, rfl, rfl, rfl⟩
    | respond _ | lock _ | stop => exact ⟨rfl, rfl, rfl, rfl⟩

end Relay

namespace Process

variable {connector : LdapConnector} {parse : String → Option (List PolicyEntry)}

variable (connector) in
/-- The steps of the process that a step of the relayed connection amounts to. -/
def translate (listener : Listener) (process : Process) (index : Nat) (relay : Relay ThresholdPolicy)
    (label : RelayLabel ThresholdPolicy) : List ProcessLabel :=
  if relay.ended = true then []
  else
    match label with
    | .request clock =>
        match relay.stage, relay.current with
        | .relaying, none =>
            match relay.first with
            | some frame => process.judge index relay frame clock
            | none =>
                match readFrame relay.clientIn with
                | .ok (some (frame, _)) => process.judge index relay frame clock
                | _ => [.stop index]
        | _, _ => []
    | .response =>
        match relay.stage, relay.writer.turn .left with
        | .relaying, .idle =>
            match readFrame relay.upstreamIn with
            | .ok (some (frame, _)) => [.respond index frame]
            | _ => [.stop index]
        | _, _ => []
    | label => if (relay.step connector listener label).ended = true then [.stop index] else []

section Steps

variable {listener : Listener} {process : Process} {index : Nat} {relay : Relay ThresholdPolicy}
  {connection : Connection}

/-- A step of the relay and the steps it is translated to keep the two together. -/
def Simulates (parse : String → Option (List PolicyEntry)) (connector : LdapConnector) (process : Process) (index : Nat)
    (connection : Connection) (labels : List ProcessLabel) (next : Relay ThresholdPolicy) : Prop :=
  ∃ later, Shadows connector (labels.foldl (step connector parse) process) index next later ∧
    later.policies = connection.policies

theorem simulates_stop (shadows : Shadows connector process index relay connection) (going : relay.ended = false)
    {next : Relay ThresholdPolicy} (bind : next.bind = relay.bind) (ended : next.ended = true)
    (handled : next.handled = relay.handled) (responses : next.responses = relay.responses) :
    Simulates parse connector process index connection [.stop index] next :=
  ⟨_, shadows.stopped going bind ended handled responses, rfl⟩

theorem simulates_bytes (shadows : Shadows connector process index relay connection) (going : relay.ended = false)
    {label : RelayLabel ThresholdPolicy} (moves : Relay.movesBytes label = true) :
    Simulates parse connector process index connection (process.translate connector listener index relay label)
      (relay.step connector listener label) := by
  obtain ⟨bind, policies, handled, responses⟩ := @Relay.step_of_movesBytes connector listener relay label moves
  have plain : process.translate connector listener index relay label =
      if (relay.step connector listener label).ended = true then [.stop index] else [] := by
    cases label with
    | request _ | response | elsewhere _ => cases moves
    | _ => simp only [translate, going, Bool.false_eq_true, if_false]
  rw [plain]
  by_cases ends : (relay.step connector listener label).ended = true
  · rw [if_pos ends]
    exact simulates_stop shadows going bind ends handled responses
  · rw [if_neg ends]
    refine ⟨connection, shadows.same bind ?_ policies handled responses, rfl⟩
    rw [going]
    exact Bool.eq_false_iff.mpr ends

theorem simulates_request (shadows : Shadows connector process index relay connection)
    (distinct : connection.policies.Nodup) (going : relay.ended = false) (clock : Nat → Int) :
    Simulates parse connector process index connection
      (process.translate connector listener index relay (.request clock)) (relay.request connector clock) := by
  have idles : relay.request connector clock = relay →
      Simulates parse connector process index connection [] (relay.request connector clock) := by
    intro same
    rw [same]
    exact ⟨connection, shadows, rfl⟩
  have stops : relay.request connector clock = { relay with ended := true } →
      Simulates parse connector process index connection [.stop index] (relay.request connector clock) := by
    intro result
    rw [result]
    exact simulates_stop shadows going rfl rfl rfl rfl
  have reads : ∀ next : Relay ThresholdPolicy, ∀ frame,
      relay.request connector clock = next.handleClientFrame connector frame clock → next.bind = relay.bind →
      next.ended = relay.ended → next.policies = relay.policies → next.handled = relay.handled →
      next.current = none → next.responses = relay.responses → Simulates parse connector process index connection
        (process.judge index relay frame clock) (relay.request connector clock) := by
    intro next frame result bind ended policies handled idle responses
    have judged := @shadows_judge connector parse _ _ _ _ (shadows.same bind ended policies handled responses) distinct
      (ended.trans going) idle frame clock
    rw [judge, policies] at judged
    rw [result]
    exact judged
  simp only [translate, going, Bool.false_eq_true, if_false]
  cases stage : relay.stage with
  | accepting | upgrading _ _ => exact idles (by simp only [Relay.request, stage])
  | relaying =>
      cases idle : relay.current with
      | some handled => exact idles (by simp only [Relay.request, stage, idle])
      | none =>
          cases first : relay.first with
          | some frame =>
              exact reads { relay with first := none } frame (by simp only [Relay.request, stage, idle, first])
                rfl rfl rfl rfl idle rfl
          | none =>
              cases read : readFrame relay.clientIn with
              | error text => exact stops (by simp only [Relay.request, stage, idle, first, read])
              | ok next =>
                  cases next with
                  | none => exact stops (by simp only [Relay.request, stage, idle, first, read])
                  | some next =>
                      exact reads { relay with clientIn := next.2 } next.1
                        (by simp only [Relay.request, stage, idle, first, read]) rfl rfl rfl rfl idle rfl

theorem simulates_response (shadows : Shadows connector process index relay connection) (going : relay.ended = false) :
    Simulates parse connector process index connection
      (process.translate connector listener index relay .response) (relay.response connector) := by
  have idles : relay.response connector = relay →
      Simulates parse connector process index connection [] (relay.response connector) := by
    intro same
    rw [same]
    exact ⟨connection, shadows, rfl⟩
  have stops : relay.response connector = { relay with ended := true } →
      Simulates parse connector process index connection [.stop index] (relay.response connector) := by
    intro result
    rw [result]
    exact simulates_stop shadows going rfl rfl rfl rfl
  simp only [translate, going, Bool.false_eq_true, if_false]
  cases stage : relay.stage with
  | accepting | upgrading _ _ => exact idles (by simp only [Relay.response, stage])
  | relaying =>
      cases turn : relay.writer.turn .left with
      | waiting _ | writing _ => exact idles (by simp only [Relay.response, stage, turn])
      | idle =>
          cases read : readFrame relay.upstreamIn with
          | error text => exact stops (by simp only [Relay.response, stage, turn, read])
          | ok next =>
              cases next with
              | none => exact stops (by simp only [Relay.response, stage, turn, read])
              | some next =>
                  cases resolved : resolvePendingBind connector relay.bind next.1 with
                  | error text =>
                      have result : relay.response connector = { relay with ended := true } := by
                        simp only [Relay.response, stage, turn, read, resolved]
                      rw [result]
                      refine shadows_respond shadows going next.1 rfl rfl ?_
                      rw [resolved]
                      exact ⟨rfl, rfl, rfl⟩
                  | ok bind =>
                      have result : relay.response connector = { relay with
                          bind, upstreamIn := next.2, responses := relay.responses ++ [next.1]
                          writer := relay.writer.submit .left next.1 } := by
                        simp only [Relay.response, stage, turn, read, resolved]
                      rw [result]
                      refine shadows_respond shadows going next.1 rfl rfl ?_
                      rw [resolved]
                      exact ⟨rfl, rfl, rfl⟩

/-- Each step of the relay is a sequence of steps of the process, most of them empty. -/
theorem simulates_step (shadows : Shadows connector process index relay connection)
    (distinct : connection.policies.Nodup) {label : RelayLabel ThresholdPolicy}
    (own : ∀ policies, label ≠ .elsewhere policies) :
    Simulates parse connector process index connection (process.translate connector listener index relay label)
      (relay.step connector listener label) := by
  cases going : relay.ended with
  | true =>
      have idle : relay.step connector listener label = relay := by simp only [Relay.step, going, if_true]
      simp only [translate, going, if_true, idle]
      exact ⟨connection, shadows, rfl⟩
  | false =>
      cases label with
      | peek | greet _ | forward _ | reject _ | respond _ | lock _ | stop => exact simulates_bytes shadows going rfl
      | elsewhere policies => exact absurd rfl (own policies)
      | request clock =>
          have stepped : relay.step connector listener (.request clock) = relay.request connector clock := by
            simp only [Relay.step, going, Bool.false_eq_true, if_false]
          rw [stepped]
          exact simulates_request shadows distinct going clock
      | response =>
          have stepped : relay.step connector listener .response = relay.response connector := by
            simp only [Relay.step, going, Bool.false_eq_true, if_false]
          rw [stepped]
          exact simulates_response shadows going

end Steps

section Bystanders

variable {process : Process} {index : Nat} {connection : Connection}

/-- The steps that a connection takes for itself. -/
def isOf (index : Nat) (process : Process) : ProcessLabel → Bool
  | .receive connection _ | .respond connection _ | .stop connection => connection = index
  | .advance k _ | .log k => process.calls[k]?.any fun call => call.connection = index
  | _ => false

/-- The steps of the others do not touch it. -/
theorem connection_of_other (found : process.connections[index]? = some connection) {label : ProcessLabel}
    (other : isOf index process label = false) :
    (process.step connector parse label).connections[index]? = some connection := by
  have elsewhere : ∀ {place : Nat} (next : Connection), place ≠ index →
      (process.connections.set place next)[index]? = some connection := by
    intro place next apart
    rw [List.getElem?_set_ne apart, found]
  by_cases touches : touching label = false
  · rw [process.connections_of_not_touching touches, found]
  · cases label with
    | hangup | load _ _ | exit | close _ | advance _ _ | tick _ _ | syncFailed _ | merge _ _ _ =>
        exact absurd rfl touches
    | accept entry ip =>
        have bound := (List.getElem?_eq_some_iff.mp found).1
        simp only [step, accept]
        split
        · exact found
        · split
          · rw [List.getElem?_append_left bound, found]
          · exact found
    | receive place frame | respond place frame | stop place =>
        have apart : place ≠ index := of_decide_eq_false other
        simp only [step, receive, respond, stop, drop]
        repeat' split
        all_goals first | exact found | exact elsewhere _ apart
    | log k =>
        simp only [step, log]
        cases called : process.calls[k]? with
        | none => exact found
        | some call =>
            have apart : call.connection ≠ index := by
              rw [isOf, called] at other
              exact of_decide_eq_false other
            simp only [drop]
            repeat' split
            all_goals first | exact found | exact elsewhere _ apart

/-- The policies of a connection, as they are now. -/
def policiesOf (index : Nat) (process : Process) : List ThresholdPolicy :=
  process.connections[index]?.elim [] fun connection =>
    connection.policies.filterMap fun handle => process.slots[handle]?.map Slot.policy

theorem Sound.holds (sound : process.Sound connector) (found : process.connections[index]? = some connection) :
    process.Holds connection.policies (policiesOf index process) := by
  have built := (sound.listed.taken connection (List.mem_of_getElem? found)).2
  rw [policiesOf, found, Option.elim_some]
  generalize connection.policies = handles at built
  induction handles with
  | nil => rfl
  | cons handle handles ih =>
      obtain ⟨slot, there⟩ : ∃ slot, process.slots[handle]? = some slot :=
        ⟨_, List.getElem?_eq_getElem (built handle List.mem_cons_self)⟩
      simp only [List.filterMap_cons, there, Option.map_some]
      exact holds_of_cons there (ih fun other member => built other (List.mem_cons_of_mem _ member))

end Bystanders

theorem Shadows.elsewhere {listener : Listener} {process : Process} {index : Nat} {relay : Relay ThresholdPolicy}
    {connection : Connection} (shadows : Shadows connector process index relay connection) {label : ProcessLabel}
    (other : isOf index process label = false) (sound : process.Sound connector) :
    Shadows connector (process.step connector parse label) index
      (relay.step connector listener (.elsewhere (policiesOf index (process.step connector parse label))))
      connection := by
  have found : (process.step connector parse label).connections[index]? = some connection :=
    connection_of_other shadows.found other
  have holds := ((process.change label).sound sound).holds found
  cases going : relay.ended with
  | true =>
      have idle : ∀ label, relay.step connector listener label = relay := by
        intro label
        simp only [Relay.step, going, if_true]
      rw [idle]
      refine { shadows with found, policies := ?_ }
      rw [going]
      exact fun no => (by cases no)
  | false =>
      simp only [Relay.step, going, Bool.false_eq_true, if_false]
      exact { shadows with found, ended := shadows.ended.trans going, policies := fun _ => holds }

section Together

variable (connector : LdapConnector) (parse : String → Option (List PolicyEntry)) (listener : Listener) (index : Nat)

/-- A step of the relayed connection, or of anything else in the process. -/
inductive Move where
  | own (label : RelayLabel ThresholdPolicy)
  | other (label : ProcessLabel)

/-- The steps of the process in a move. -/
def processSteps (both : Process × Relay ThresholdPolicy) : Move → List ProcessLabel
  | .own (.elsewhere _) => []
  | .own label => both.1.translate connector listener index both.2 label
  | .other label => if isOf index both.1 label = true then [] else [label]

/-- The steps of the relay in a move. Of the steps of others it sees what they make of its
    policies. -/
def relaySteps (both : Process × Relay ThresholdPolicy) : Move → List (RelayLabel ThresholdPolicy)
  | .own (.elsewhere _) => []
  | .own label => [label]
  | .other label =>
      if isOf index both.1 label = true then []
      else [.elsewhere (policiesOf index (both.1.step connector parse label))]

def together (both : Process × Relay ThresholdPolicy) (move : Move) : Process × Relay ThresholdPolicy :=
  ((processSteps connector listener index both move).foldl (step connector parse) both.1,
    (relaySteps connector parse index both move).foldl (Relay.step connector listener) both.2)

/-- The process and the connection that is relayed are in step. -/
structure InStep (source upstream : Bytes) (both : Process × Relay ThresholdPolicy) : Prop where
  process : both.1.Sound connector
  relay : both.2.Sound connector listener source upstream
  shadows : ∃ connection, Shadows connector both.1 index both.2 connection

variable {connector parse listener index}

theorem Sound.run {process : Process} (sound : process.Sound connector) (labels : List ProcessLabel) :
    (labels.foldl (step connector parse) process).Sound connector := by
  have always := @always_of_step _ _ (step connector parse) (Sound connector) process labels sound
    fun process label sound => (process.change label).sound sound
  exact always labels (List.prefix_refl labels)

theorem InStep.step {source upstream : Bytes} {both : Process × Relay ThresholdPolicy}
    (joined : InStep connector listener index source upstream both) (move : Move) :
    InStep connector listener index source upstream (together connector parse listener index both move) := by
  obtain ⟨sound, relayed, connection, shadows⟩ := joined
  refine ⟨sound.run _, relayed.run _, ?_⟩
  have distinct := (sound.listed.taken connection (List.mem_of_getElem? shadows.found)).1
  cases move with
  | own label =>
      by_cases foreign : ∃ policies, label = .elsewhere policies
      · obtain ⟨policies, rfl⟩ := foreign
        exact ⟨connection, shadows⟩
      · rw [not_exists] at foreign
        have translated : processSteps connector listener index both (.own label) =
            both.1.translate connector listener index both.2 label := by
          cases label with
          | elsewhere policies => exact absurd rfl (foreign policies)
          | _ => rfl
        have stepped : relaySteps connector parse index both (.own label) = [label] := by
          cases label with
          | elsewhere policies => exact absurd rfl (foreign policies)
          | _ => rfl
        obtain ⟨later, still, -⟩ := @simulates_step connector parse listener _ _ _ _ shadows distinct label foreign
        simp only [together, translated, stepped]
        exact ⟨later, still⟩
  | other label =>
      cases own : isOf index both.1 label with
      | true =>
          simp only [together, processSteps, relaySteps, own, if_true]
          exact ⟨connection, shadows⟩
      | false =>
          simp only [together, processSteps, relaySteps, own, Bool.false_eq_true, if_false]
          have still := @Shadows.elsewhere connector parse listener _ _ _ _ shadows label own sound
          exact ⟨connection, still⟩

/-- An entry accepts a connection, and its bytes begin to be relayed. -/
def opening (process : Process) (entry index : Nat) (ip : String) (source upstream : Bytes) :
    Process × Relay ThresholdPolicy :=
  (process.accept entry ip, .start ip (policiesOf index (process.accept entry ip)) source upstream)

theorem inStep_opening {process : Process} (sound : process.Sound connector) {entry : Nat}
    (accepts : process.Accepts entry index) (ip : String) (source upstream : Bytes) :
    InStep connector listener index source upstream (process.opening entry index ip source upstream) := by
  obtain ⟨last, found, there, serving⟩ := accepts
  have after : (process.accept entry ip).Sound connector :=
    (@change connector (fun _ => none) process (.accept entry ip)).sound sound
  have accepted : (process.accept entry ip).connections[index]? = some (.accepted entry found.policies ip) := by
    simp only [accept, there, serving, if_true, ← last]
    exact getElem?_snoc_self _ _
  refine ⟨after, .start ip _, _, accepted, rfl, rfl, rfl, fun _ => after.holds accepted, rfl, rfl, rfl⟩

theorem InStep.run {source upstream : Bytes} {both : Process × Relay ThresholdPolicy}
    (joined : InStep connector listener index source upstream both) (moves : List Move) :
    InStep connector listener index source upstream (moves.foldl (together connector parse listener index) both) :=
  List.foldlRecOn moves _ joined fun _ kept move _ => kept.step move

variable (connector parse listener) in
/-- A connection that is relayed byte by byte, while the rest of the process goes on around it
    in any order, is a connection of the process: the moves are steps of the process, and steps
    of the relay, and the two agree at any time on the identity of the client, on the policies,
    and on the frames that were passed on, answered and rejected. -/
theorem relayed_connection_refines (configs : List (String × List ThresholdPolicy)) (labels : List ProcessLabel)
    {entry index : Nat} (accepts : (labels.foldl (step connector parse) (start configs)).Accepts entry index)
    (ip : String) (source upstream : Bytes) (moves : List Move) :
    let opened := (labels.foldl (step connector parse) (start configs)).opening entry index ip source upstream
    let both := moves.foldl (together connector parse listener index) opened
    both.1 = (labels ++ .accept entry ip :: emits (together connector parse listener index)
        (processSteps connector listener index) opened moves).foldl (step connector parse) (start configs) ∧
      both.2 = (emits (together connector parse listener index) (relaySteps connector parse index) opened
        moves).foldl (Relay.step connector listener) opened.2 ∧
      ∃ connection, Shadows connector both.1 index both.2 connection := by
  intro opened both
  have sound := always_sound connector parse configs labels labels (List.prefix_refl labels)
  have joined : InStep connector listener index source upstream opened :=
    inStep_opening sound accepts ip source upstream
  refine ⟨?_, ?_, (joined.run moves).shadows⟩
  · rw [List.foldl_append, List.foldl_cons]
    exact foldl_emits Prod.fst (fun _ _ => rfl) opened moves
  · exact foldl_emits Prod.snd (fun _ _ => rfl) opened moves

/-- One entry, with the minute policy. -/
def oneEntry : Process := start [("ldap.toml", [⟨ThresholdPolicy.minuteConfig, .empty, none⟩])]

/-- A connection has its request judged, between the turns of another one's call, and has sent
    the first bytes of it upstream. -/
def disturbances : List Move :=
  [.own .peek, .other (.accept 0 "10.0.0.2"), .other (.receive 1 Relay.deleteFrame), .other (.advance 0 4),
    .own (.request fun _ => 5), .other (.advance 0 6), .own (.forward 3), .other (.log 0)]

/-- What the two have come to then. -/
def disturbedRelay : Process × Relay ThresholdPolicy :=
  disturbances.foldl (together Relay.deleteConnector twoFiles ⟨false, none⟩ 0)
    (oneEntry.opening 0 0 "10.0.0.1" Relay.deleteFrame [])

theorem oneEntry_accepts : oneEntry.Accepts 0 0 := ⟨rfl, _, rfl, rfl⟩

theorem disturbed_relay_refines :
    ∃ connection, Shadows Relay.deleteConnector disturbedRelay.1 0 disturbedRelay.2 connection :=
  (relayed_connection_refines Relay.deleteConnector twoFiles ⟨false, none⟩ _ [] oneEntry_accepts "10.0.0.1"
    Relay.deleteFrame [] disturbances).2.2

variable (connector listener) in
/-- What passes over the wires of a connection. -/
structure OnTheWire (index : Nat) (source upstream : Bytes) (both : Process × Relay ThresholdPolicy)
    (connection : Connection) : Prop where
  found : both.1.connections[index]? = some connection
  mediated : both.1.Mediated connector index connection
  /-- The upstream gets frames of the client, in the client's order, byte by byte. -/
  requests : (connection.toUpstream.map Sent.bytes).Sublist (frames (Relay.session connector listener source).stream)
  forwarded : both.2.toUpstream <+: (connection.toUpstream.map Sent.bytes).flatten
  /-- The client gets frames of the upstream, and the rejections between them. -/
  responses : (connection.toClient.filter fun sent => sent.call.isNone).map Sent.bytes <+: frames upstream
  answered : ∃ merged, Interleaving ((connection.toClient.filter fun sent => sent.call.isNone).map Sent.bytes)
    ((connection.toClient.filter fun sent => sent.call.isSome).map Sent.bytes) merged ∧
    both.2.toClient <+: (Relay.session connector listener source).greeting ++ merged.flatten

theorem InStep.onTheWire {source upstream : Bytes} {both : Process × Relay ThresholdPolicy}
    (joined : InStep connector listener index source upstream both) :
    ∃ connection, OnTheWire connector listener index source upstream both connection := by
  obtain ⟨sound, relayed, connection, shadows⟩ := joined
  obtain ⟨merged, mixed, written⟩ := relayed.client.out_prefix
  refine ⟨connection, shadows.found, sound.mediated shadows.found, ?_, ?_, ?_, merged, ?_,
    relayed.toClient_prefix written⟩
  · rw [shadows.upstream]
    exact ((List.filter_sublist.map Handled.frame).trans relayed.requests_prefix.sublist)
  · rw [shadows.upstream]
    exact ⟨both.2.unsent, relayed.forwarded⟩
  · rw [shadows.responses]
    exact relayed.responses_prefix
  · rw [shadows.responses, shadows.rejections]
    exact mixed

end Together

end Process

end AiProtect
