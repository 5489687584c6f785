import AiProtect.Proxy.Relay

/-! # Which binds a connection keeps track of

`BindTrack` is the bind state under the frames of both directions, in the order in which
they are handled. The ghosts are what an observer of the wire knows: the bind requests
without an answer, each with the claim that was staged for it, and the claim whose
success was relayed last. The size of `pending` is bounded for every peer; for peers that
keep to the protocol `pending` and `identity` are exactly what the observer knows.
-/

universe u

namespace AiProtect

open RankIndex Runs

structure BindTrack where
  state : BindState
  unanswered : Finmap fun _ : Nat => Option String
  bound : Option String
  closed : Bool

inductive BindEvent where
  | request (frame : Bytes)
  | response (frame : Bytes)

namespace BindTrack

variable (connector : LdapConnector)

def start (ip : String) : BindTrack := ⟨.start ip, ∅, none, false⟩

/-- A client frame is handled; one that does not decode ends the connection. -/
def request (track : BindTrack) (frame : Bytes) : BindTrack :=
  match connector.bindRequest frame with
  | .error _ => { track with closed := true }
  | .ok claim => { track with
      state := track.state.stage claim
      unanswered := (BindRun.bindId connector frame).elim track.unanswered fun messageId =>
        track.unanswered.insert messageId (claim.map Prod.snd) }

/-- An upstream frame is handled; one that does not decode ends the connection. -/
def response (track : BindTrack) (frame : Bytes) : BindTrack :=
  match connector.bindResponse frame, resolvePendingBind connector track.state frame with
  | .ok (some (messageId, success)), .ok state => { track with
      state
      unanswered := track.unanswered.erase messageId
      bound := if success = true then (track.unanswered.lookup messageId).join.or track.bound else track.bound }
  | _, .ok state => { track with state }
  | _, .error _ => { track with closed := true }

def step (track : BindTrack) (event : BindEvent) : BindTrack :=
  if track.closed = true then track
  else
    match event with
    | .request frame => track.request connector frame
    | .response frame => track.response connector frame

/-- The unanswered binds that made a claim. -/
def claims (track : BindTrack) : Finset Nat :=
  track.unanswered.keys.filter fun messageId => (track.unanswered.lookup messageId).join.isSome = true

/-- A bind request uses no ID that is still unanswered, and makes no claim beyond the
    bound; a bind response answers an unanswered bind. -/
def WellBehaved (track : BindTrack) : BindEvent → Prop
  | .request frame => track.closed = false → ∀ messageId ∈ BindRun.bindId connector frame,
      messageId ∉ track.unanswered ∧
        ((BindRun.claimed connector frame).isSome = true → track.claims.card < maxPendingBinds)
  | .response frame => track.closed = false → ∀ answer ∈ (connector.bindResponse frame).toOption.join,
      answer.1 ∈ track.unanswered

instance (track : BindTrack) : (event : BindEvent) → Decidable (track.WellBehaved connector event)
  | .request frame => inferInstanceAs (Decidable (track.closed = false →
      ∀ messageId ∈ BindRun.bindId connector frame, messageId ∉ track.unanswered ∧
        ((BindRun.claimed connector frame).isSome = true → track.claims.card < maxPendingBinds)))
  | .response frame => inferInstanceAs (Decidable (track.closed = false →
      ∀ answer ∈ (connector.bindResponse frame).toOption.join, answer.1 ∈ track.unanswered))

/-- A claim is found under its message ID right after it is staged. -/
def HoldsStaged (track : BindTrack) : BindEvent → Prop
  | .request frame => track.closed = false → ∀ messageId dn,
      connector.bindRequest frame = .ok (some (messageId, dn)) →
        (track.step connector (.request frame)).state.pending.lookup messageId = some dn
  | .response _ => True

end BindTrack

/-- Staging keeps within the bound. -/
theorem card_stagePendingBind_le {pending : Finmap fun _ : Nat => String}
    (bounded : pending.keys.card ≤ maxPendingBinds) (messageId : Nat) (dn : String) :
    (stagePendingBind pending messageId dn).keys.card ≤ maxPendingBinds := by
  simp only [stagePendingBind, keys_insert]
  by_cases full : maxPendingBinds ≤ pending.keys.card ∧ messageId ∉ pending
  · rw [if_pos full]
    cases least : first pending.keys with
    | none =>
        rw [first_eq_none.mp least] at full
        exact absurd full.1 (by decide)
    | some oldest =>
        have freed := Finset.card_insert_le messageId (pending.keys.erase oldest)
        have positive := Finset.card_pos.mpr ⟨oldest, first_mem least⟩
        rw [Finset.card_erase_of_mem (first_mem least)] at freed
        simp only [keys_erase]
        omega
  · rw [if_neg full]
    by_cases staged : messageId ∈ pending
    · rw [Finset.insert_eq_of_mem (Finmap.mem_keys.mpr staged)]
      exact bounded
    · have room : pending.keys.card < maxPendingBinds := by
        by_contra none
        exact full ⟨Nat.le_of_not_lt none, staged⟩
      have added := Finset.card_insert_le messageId pending.keys
      omega

/-- With room left, a claim is added and no other one touched. -/
theorem stagePendingBind_of_room {pending : Finmap fun _ : Nat => String}
    (room : pending.keys.card < maxPendingBinds) (messageId : Nat) (dn : String) :
    stagePendingBind pending messageId dn = pending.insert messageId dn := by
  have roomy : ¬ (maxPendingBinds ≤ pending.keys.card ∧ messageId ∉ pending) := fun full => by omega
  simp only [stagePendingBind, if_neg roomy]

namespace BindState

theorem card_stage_le {state : BindState} (bounded : state.pending.keys.card ≤ maxPendingBinds)
    (claim : Option (Nat × String)) : (state.stage claim).pending.keys.card ≤ maxPendingBinds := by
  cases claim with
  | none => exact bounded
  | some claim => exact card_stagePendingBind_le bounded claim.1 claim.2

theorem card_resolve_le {state : BindState} (bounded : state.pending.keys.card ≤ maxPendingBinds)
    (messageId : Nat) (success : Bool) : (state.resolve messageId success).pending.keys.card ≤ maxPendingBinds := by
  simp only [resolve]
  split
  · exact bounded
  · simp only [keys_erase]
    exact le_trans (Finset.card_erase_le) bounded

end BindState

namespace BindTrack

variable {connector : LdapConnector} {track : BindTrack}

theorem response_eq (frame : Bytes) : track.response connector frame =
    match connector.bindResponse frame with
    | .error _ => { track with closed := true }
    | .ok none => track
    | .ok (some (messageId, success)) => { track with
        state := track.state.resolve messageId success
        unanswered := track.unanswered.erase messageId
        bound := if success = true then (track.unanswered.lookup messageId).join.or track.bound
          else track.bound } := by
  rw [response, resolvePendingBind_eq]
  rcases connector.bindResponse frame with text | _ | ⟨messageId, success⟩ <;> rfl

theorem bounded_step (bounded : track.state.pending.keys.card ≤ maxPendingBinds)
    (event : BindEvent) :
    (track.step connector event).state.pending.keys.card ≤ maxPendingBinds := by
  simp only [step]
  split
  · exact bounded
  · cases event with
    | request frame =>
        simp only [request]
        split
        · exact bounded
        · exact BindState.card_stage_le bounded _
    | response frame =>
        simp only [response_eq]
        split
        · exact bounded
        · exact bounded
        · exact BindState.card_resolve_le bounded _ _

theorem holdsStaged (event : BindEvent) : track.HoldsStaged connector event := by
  cases event with
  | response _ => trivial
  | request frame =>
      intro going messageId dn staged
      simp only [step, going, Bool.false_eq_true, if_false, request, staged, BindState.stage, stagePendingBind]
      exact Finmap.lookup_insert _

/-- The state is what an observer of the wire would expect. -/
structure Exact (peer : Identity) (track : BindTrack) : Prop where
  identity : track.state.identity = track.bound.elim peer Identity.fromBindDn
  pending : ∀ messageId, track.state.pending.lookup messageId = (track.unanswered.lookup messageId).join

namespace Exact

variable {peer : Identity}

theorem mem_claims (exact : track.Exact peer) {messageId : Nat}
    (staged : messageId ∈ track.state.pending) :
    messageId ∈ track.claims := by
  have found := Finmap.lookup_isSome.mpr staged
  rw [exact.pending] at found
  refine Finset.mem_filter.mpr ⟨Finmap.mem_keys.mpr (Finmap.lookup_isSome.mp ?_), found⟩
  cases open_ : track.unanswered.lookup messageId with
  | none =>
      rw [open_] at found
      cases found
  | some claim => rfl

/-- As long as the client keeps to the bound, there is room for one more claim. -/
theorem room (exact : track.Exact peer) (few : track.claims.card < maxPendingBinds) :
    track.state.pending.keys.card < maxPendingBinds :=
  lt_of_le_of_lt (Finset.card_le_card fun _ member => exact.mem_claims (Finmap.mem_keys.mp member)) few

theorem request (exact : track.Exact peer) {frame : Bytes} (going : track.closed = false)
    (behaved : track.WellBehaved connector (.request frame)) : (track.request connector frame).Exact peer := by
  simp only [BindTrack.request]
  cases claims : connector.bindRequest frame with
  | error _ => exact ⟨exact.identity, exact.pending⟩
  | ok claim =>
      refine ⟨?_, ?_⟩
      · cases claim <;> exact exact.identity
      · intro id
        cases claim with
        | none =>
            cases bind : BindRun.bindId connector frame with
            | none => exact exact.pending id
            | some messageId =>
                have unused := (behaved going messageId bind).1
                simp only [BindState.stage, Option.elim_some, Option.map_none, lookup_insert_ite]
                split
                · rename_i same
                  rw [exact.pending, same, Finmap.lookup_eq_none.mpr unused]
                  rfl
                · exact exact.pending id
        | some claim =>
            obtain ⟨messageId, dn⟩ := claim
            obtain ⟨bind, claimed⟩ := BindRun.decode_of_bindRequest claims
            obtain ⟨unused, few⟩ := behaved going messageId bind
            have room := exact.room (few (by rw [claimed]; rfl))
            simp only [BindState.stage, bind, stagePendingBind_of_room room, Option.elim_some, Option.map_some,
              lookup_insert_ite]
            split
            · rfl
            · exact exact.pending id

theorem response (exact : track.Exact peer) (frame : Bytes) :
    (track.response connector frame).Exact peer := by
  rw [response_eq]
  rcases connector.bindResponse frame with text | _ | ⟨messageId, success⟩
  · exact ⟨exact.identity, exact.pending⟩
  · exact exact
  · have staged := exact.pending messageId
    refine ⟨?_, ?_⟩
    · cases claim : (track.unanswered.lookup messageId).join with
      | none =>
          rw [claim] at staged
          simp only [BindState.resolve, staged, claim, Option.none_or, ite_self]
          exact exact.identity
      | some dn =>
          rw [claim] at staged
          cases success with
          | true => simp only [BindState.resolve, staged, claim, if_true, Option.some_or, Option.elim_some]
          | false =>
              simp only [BindState.resolve, staged, Bool.false_eq_true, if_false]
              exact exact.identity
    · intro id
      rw [lookup_erase_ite]
      cases claim : track.state.pending.lookup messageId with
      | none =>
          simp only [BindState.resolve, claim]
          split
          · rename_i same
            rw [same, claim]
            rfl
          · exact exact.pending id
      | some dn =>
          simp only [BindState.resolve, claim, lookup_erase_ite]
          split
          · rfl
          · exact exact.pending id

theorem step (exact : track.Exact peer) {event : BindEvent}
    (behaved : track.WellBehaved connector event) :
    (track.step connector event).Exact peer := by
  simp only [BindTrack.step]
  split
  · exact exact
  · rename_i going
    cases event with
    | request frame => exact exact.request (Bool.eq_false_iff.mpr going) behaved
    | response frame => exact exact.response frame

end Exact

/-- `pending` is bounded for every peer and has the claim just staged; for peers that keep
    to the protocol it has exactly the unanswered claims, and the identity is that of the
    claim whose success was relayed last, or of the peer address if there was none. -/
theorem bind_tracking_exact_and_bounded (connector : LdapConnector) (ip : String)
    (events : List BindEvent) :
    (Always (step connector) (fun track => track.state.pending.keys.card ≤ maxPendingBinds) (start ip) events ∧
        EachStep (step connector) (HoldsStaged connector) (start ip) events) ∧
      (EachStep (step connector) (WellBehaved connector) (start ip) events →
        Always (step connector) (Exact (Identity.fromPeerAddr ip)) (start ip) events) := by
  refine ⟨⟨?_, fun _ _ _ => holdsStaged _⟩, ?_⟩
  · exact always_of_step (Nat.zero_le _) fun _ event bounded => bounded_step bounded event
  · intro behaved
    have started : (start ip).Exact (Identity.fromPeerAddr ip) := ⟨rfl, fun _ => rfl⟩
    exact behaved.always started fun _ _ exact here => exact.step here

/-- A simple bind and its success, then an anonymous bind under the same ID and its success. -/
def reboundEvents : List BindEvent :=
  [.request BindRun.simpleBind, .response BindRun.bindSuccess, .request BindRun.anonymousBind,
    .response BindRun.bindSuccess]

theorem bind_tracking_rebound :
    (reboundEvents.foldl (step BindRun.sampleConnector) (start "10.0.0.1")).bound = some "cn=v" ∧
      (reboundEvents.foldl (step BindRun.sampleConnector) (start "10.0.0.1")).state.identity =
        Identity.fromBindDn "cn=v" := by
  have bound : (reboundEvents.foldl (step BindRun.sampleConnector) (start "10.0.0.1")).bound = some "cn=v" := by
    decide +kernel
  have behaved : EachStep (step BindRun.sampleConnector) (WellBehaved BindRun.sampleConnector) (start "10.0.0.1")
      reboundEvents := by
    simp only [reboundEvents, eachStep_cons]
    exact ⟨by decide +kernel, by decide +kernel, by decide +kernel, by decide +kernel, eachStep_nil⟩
  have exact := (bind_tracking_exact_and_bounded BindRun.sampleConnector "10.0.0.1" reboundEvents).2 behaved
    reboundEvents (List.prefix_refl _)
  refine ⟨bound, ?_⟩
  rw [exact.identity, bound]
  rfl

end BindTrack

namespace Relay

variable {π : Type u} [Policy π] {connector : LdapConnector} {listener : Listener}

/-- One frame of the client or of the upstream, or none, moves the bind state on. -/
inductive BindMove (connector : LdapConnector) (before : BindState) : BindState → Prop where
  | none : BindMove connector before before
  | request {frame : Bytes} {claim : Option (Nat × String)} (claims : connector.bindRequest frame = .ok claim) :
      BindMove connector before (before.stage claim)
  | response {frame : Bytes} {after : BindState} (resolved : resolvePendingBind connector before frame = .ok after) :
      BindMove connector before after

theorem bindMove_handleClientFrame (relay : Relay π) (frame : Bytes) (clock : Nat → Int) :
    BindMove connector relay.bind (relay.handleClientFrame connector frame clock).bind := by
  simp only [handleClientFrame]
  split
  · exact .none
  · rename_i claims
    split
    · exact .request claims
    · exact .request claims
    · split
      · exact .request claims
      · split <;> exact .request claims

theorem bindMove_step (listener : Listener) (relay : Relay π) (label : RelayLabel π) :
    BindMove connector relay.bind (relay.step connector listener label).bind := by
  simp only [step]
  split
  · exact .none
  · cases label with
    | peek =>
        simp only [peek]
        repeat' split
        all_goals exact .none
    | greet count =>
        simp only [greet]
        repeat' split
        all_goals exact .none
    | request clock =>
        simp only [request]
        split
        · split
          · exact bindMove_handleClientFrame { relay with first := none } _ clock
          · split
            · exact .none
            · exact .none
            · rename_i frame rest _
              exact bindMove_handleClientFrame { relay with clientIn := rest } frame clock
        · exact .none
    | forward count =>
        simp only [forward]
        split
        · exact .none
        · split
          · split <;> exact .none
          · exact .none
    | reject count =>
        simp only [reject]
        split
        · split <;> exact .none
        · exact .none
    | response =>
        simp only [response]
        split
        · split
          · exact .none
          · exact .none
          · split
            · exact .none
            · rename_i resolved
              exact .response resolved
        · exact .none
    | respond _ | lock _ | elsewhere _ | stop => exact .none

theorem BindMove.tracked {track : BindTrack} (going : track.closed = false) {after : BindState}
    (move : BindMove connector track.state after) : ∃ events : List BindEvent,
      (events.foldl (BindTrack.step connector) track).state = after ∧
      (events.foldl (BindTrack.step connector) track).closed = false := by
  cases move with
  | none => exact ⟨[], rfl, going⟩
  | @request frame claim claims =>
      refine ⟨[.request frame], ?_⟩
      simp only [List.foldl_cons, List.foldl_nil, BindTrack.step, going, Bool.false_eq_true, if_false,
        BindTrack.request, claims, and_self]
  | @response frame after resolved =>
      refine ⟨[.response frame], ?_⟩
      rw [resolvePendingBind_eq] at resolved
      simp only [List.foldl_cons, List.foldl_nil, BindTrack.step, going, Bool.false_eq_true, if_false,
        BindTrack.response_eq]
      revert resolved
      rcases connector.bindResponse frame with text | _ | ⟨messageId, success⟩ <;> intro resolved
      · cases resolved
      · exact ⟨Except.ok.inj resolved, going⟩
      · exact ⟨Except.ok.inj resolved, rfl⟩

/-- The bind state of every run of the relay is one that `BindTrack` reaches. -/
theorem bind_tracked (ip : String) (policies : List π) (clientIn upstreamIn : Bytes)
    (labels : List (RelayLabel π)) : ∃ events : List BindEvent,
      (events.foldl (BindTrack.step connector) (.start ip)).state =
        (labels.foldl (step connector listener) (start ip policies clientIn upstreamIn)).bind ∧
      (events.foldl (BindTrack.step connector) (.start ip)).closed = false := by
  induction labels using List.reverseRecOn with
  | nil => exact ⟨[], rfl, rfl⟩
  | append_singleton labels label ih =>
      obtain ⟨events, same, going⟩ := ih
      rw [List.foldl_append, List.foldl_cons, List.foldl_nil]
      have move : BindMove connector _ _ := bindMove_step listener
        (labels.foldl (step connector listener) (start ip policies clientIn upstreamIn)) label
      rw [← same] at move
      obtain ⟨more, reached, onward⟩ := move.tracked going
      refine ⟨events ++ more, ?_⟩
      rw [List.foldl_append]
      exact ⟨reached, onward⟩

end Relay

end AiProtect
