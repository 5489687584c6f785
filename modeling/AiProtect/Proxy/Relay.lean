import AiProtect.Ldap.Frame
import AiProtect.Lib.SharedWriter
import AiProtect.Policy.Chain
import AiProtect.Proxy.BindState

/-! # The relay

`handle_connection`: after an upgrade to TLS, if the client asks for one in its first
frame, the client direction has every request judged and forwards or rejects it, and
the upstream direction passes the responses on. Both write to the client. The streams
are the bytes each peer will ever send, and a write may stop after any of its bytes.

The ghosts `done`, `current` and `responses` say which frames have been read. The
theorem of this module says what has then been written, in every order of steps.
-/

universe u

namespace AiProtect

/-- How clients connect: over TLS from the first byte on, or in the clear with StartTLS
    on offer. The acceptor turns the bytes after the upgrade into the decrypted stream. -/
structure Listener where
  tls : Bool
  starttls : Option (Bytes → Option Bytes)

def Listener.upgrade (listener : Listener) : Option (Bytes → Option Bytes) :=
  if listener.tls = true then none else listener.starttls

/-- The call of `evaluate_all` made for a frame, with the policies as it finds them. -/
structure PolicyCall (π : Type u) where
  action : Action
  ctx : PolicyContext
  policies : List (π × Int)

inductive Verdict (π : Type u) where
  | undecodable
  | unpoliced
  | judged (call : PolicyCall π)

/-- A client frame the client direction has read. -/
structure Handled (π : Type u) where
  frame : Bytes
  verdict : Verdict π

section Verdicts

variable {π : Type u} [Policy π]

def PolicyCall.decision (call : PolicyCall π) : Decision := (evaluateAll call.action call.ctx call.policies).1

namespace Handled

/-- The verdict is that of `decode`, on this very frame. -/
def Judged (connector : LdapConnector) (handled : Handled π) : Prop :=
  match handled.verdict with
  | .undecodable => ∃ text, connector.decode handled.frame = .error text
  | .unpoliced => connector.decode handled.frame = .ok none
  | .judged call => connector.decode handled.frame = .ok (some call.action)

def forwards (handled : Handled π) : Bool :=
  match handled.verdict with
  | .undecodable => false
  | .unpoliced => true
  | .judged call => call.decision.isAllow

/-- Why the frame was blocked, if it was. -/
def blockedFor (handled : Handled π) : Option String :=
  match handled.verdict with
  | .judged call =>
      match call.decision with
      | .allow => none
      | .block reason => some reason
  | _ => none

/-- The rejection of a blocked frame; nothing if it cannot be built. -/
def rejection (connector : LdapConnector) (handled : Handled π) : Option Bytes :=
  handled.blockedFor.bind fun reason => (connector.buildRejection handled.frame reason).toOption

theorem blockedFor_of_forwards {handled : Handled π} (passes : handled.forwards = true) :
    handled.blockedFor = none := by
  cases verdict : handled.verdict with
  | undecodable | unpoliced => simp only [blockedFor, verdict]
  | judged call =>
      cases decision : call.decision with
      | allow => simp only [blockedFor, verdict, decision]
      | block reason => simp only [forwards, verdict, decision, Decision.isAllow_block, Bool.false_eq_true] at passes

theorem rejection_of_forwards {connector : LdapConnector} {handled : Handled π}
    (passes : handled.forwards = true) : handled.rejection connector = none := by
  rw [rejection, blockedFor_of_forwards passes, Option.bind_none]

end Handled

end Verdicts

inductive Stage where
  | accepting
  | upgrading (accept : Bytes → Option Bytes) (rest : Bytes)
  | relaying

/-- A connection. `first` is a frame left over from the peek, `unsent` what has to be
    written upstream of the current frame, and `greeted` what has been written of the
    StartTLS response. -/
structure Relay (π : Type u) where
  stage : Stage
  bind : BindState
  policies : List π
  first : Option Bytes
  clientIn : Bytes
  upstreamIn : Bytes
  current : Option (Handled π)
  unsent : Bytes
  writer : SharedWriter UInt8
  greeted : Bytes
  toUpstream : Bytes
  done : List (Handled π)
  responses : List Bytes
  ended : Bool

/-- The steps of a connection. The upstream direction writes on the left of the shared
    writer, the client direction on the right. `elsewhere` is what other connections do
    to the policies, and `stop` an I/O error, a timeout or a shutdown. -/
inductive RelayLabel (π : Type u) where
  | peek
  | greet (count : Nat)
  | request (clock : Nat → Int)
  | forward (count : Nat)
  | reject (count : Nat)
  | response
  | respond (count : Nat)
  | lock (side : Side)
  | elsewhere (policies : List π)
  | stop

namespace Relay

variable {π : Type u} [Policy π] (connector : LdapConnector) (listener : Listener)

def start (ip : String) (policies : List π) (clientIn upstreamIn : Bytes) : Relay π where
  stage := .accepting
  bind := .start ip
  policies := policies
  first := none
  clientIn := clientIn
  upstreamIn := upstreamIn
  current := none
  unsent := []
  writer := .start
  greeted := []
  toUpstream := []
  done := []
  responses := []
  ended := false

/-- The client frames read so far. -/
def handled (relay : Relay π) : List (Handled π) := relay.done ++ relay.current.toList

def toClient (relay : Relay π) : Bytes := relay.greeted ++ relay.writer.out

/-- `maybe_upgrade_to_tls`, up to the response. -/
def peek (relay : Relay π) : Relay π :=
  match relay.stage with
  | .accepting =>
      match listener.upgrade with
      | none => { relay with stage := .relaying }
      | some accept =>
          match readFrame relay.clientIn with
          | .error _ => { relay with ended := true }
          | .ok none => { relay with stage := .relaying }
          | .ok (some (frame, rest)) =>
              match connector.upgradeRequest frame with
              | .error _ => { relay with ended := true }
              | .ok none => { relay with stage := .relaying, first := some frame, clientIn := rest }
              | .ok (some response) => { relay with stage := .upgrading accept response, clientIn := rest }
  | _ => relay

/-- Write some of the StartTLS response, and do the handshake after the last byte of it. -/
def greet (relay : Relay π) (count : Nat) : Relay π :=
  match relay.stage with
  | .upgrading accept rest =>
      let next := { relay with
        stage := .upgrading accept (rest.drop count), greeted := relay.greeted ++ rest.take count }
      match rest.drop count with
      | _ :: _ => next
      | [] =>
          match accept relay.clientIn with
          | none => { next with ended := true }
          | some stream => { next with stage := .relaying, clientIn := stream }
  | _ => relay

/-- `handle_client_frame`, up to the write. -/
def handleClientFrame (relay : Relay π) (frame : Bytes) (clock : Nat → Int) : Relay π :=
  match connector.bindRequest frame with
  | .error _ => { relay with current := some ⟨frame, .undecodable⟩, ended := true }
  | .ok claim =>
      let bind := relay.bind.stage claim
      match connector.decode frame with
      | .error _ => { relay with bind, current := some ⟨frame, .undecodable⟩, ended := true }
      | .ok none => { relay with bind, current := some ⟨frame, .unpoliced⟩, unsent := frame }
      | .ok (some action) =>
          let call : PolicyCall π :=
            ⟨action, ⟨bind.identity⟩, relay.policies.mapIdx fun index policy => (policy, clock index)⟩
          let policies := (evaluateAll call.action call.ctx call.policies).2
          match (evaluateAll call.action call.ctx call.policies).1 with
          | .allow => { relay with bind, policies, current := some ⟨frame, .judged call⟩, unsent := frame }
          | .block reason =>
              match connector.buildRejection frame reason with
              | .error _ => { relay with bind, policies, current := some ⟨frame, .judged call⟩, ended := true }
              | .ok rejection => { relay with
                  bind, policies, current := some ⟨frame, .judged call⟩
                  writer := relay.writer.submit .right rejection }

/-- `relay_client_requests`: the next client frame, once the last one is done with. -/
def request (relay : Relay π) (clock : Nat → Int) : Relay π :=
  match relay.stage, relay.current with
  | .relaying, none =>
      match relay.first with
      | some frame => handleClientFrame connector { relay with first := none } frame clock
      | none =>
          match readFrame relay.clientIn with
          | .error _ => { relay with ended := true }
          | .ok none => { relay with ended := true }
          | .ok (some (frame, rest)) => handleClientFrame connector { relay with clientIn := rest } frame clock
  | _, _ => relay

def finish (relay : Relay π) : Relay π := { relay with done := relay.handled, current := none }

/-- Write some of the current frame upstream. -/
def forward (relay : Relay π) (count : Nat) : Relay π :=
  match relay.current with
  | none => relay
  | some handled =>
      if handled.forwards = true then
        let next := { relay with
          toUpstream := relay.toUpstream ++ relay.unsent.take count, unsent := relay.unsent.drop count }
        if next.unsent = [] then next.finish else next
      else relay

/-- Write some of the rejection of the current frame. -/
def reject (relay : Relay π) (count : Nat) : Relay π :=
  match relay.writer.turn .right with
  | .writing rest =>
      let next := { relay with writer := relay.writer.write .right count }
      if rest.drop count = [] then next.finish else next
  | _ => relay

/-- `relay_upstream_responses`: the next upstream frame, once the last one is written. -/
def response (relay : Relay π) : Relay π :=
  match relay.stage, relay.writer.turn .left with
  | .relaying, .idle =>
      match readFrame relay.upstreamIn with
      | .error _ => { relay with ended := true }
      | .ok none => { relay with ended := true }
      | .ok (some (frame, rest)) =>
          match resolvePendingBind connector relay.bind frame with
          | .error _ => { relay with ended := true }
          | .ok bind => { relay with
              bind, upstreamIn := rest, responses := relay.responses ++ [frame]
              writer := relay.writer.submit .left frame }
  | _, _ => relay

def step (relay : Relay π) (label : RelayLabel π) : Relay π :=
  if relay.ended = true then relay
  else
    match label with
    | .peek => relay.peek connector listener
    | .greet count => relay.greet count
    | .request clock => relay.request connector clock
    | .forward count => relay.forward count
    | .reject count => relay.reject count
    | .response => relay.response connector
    | .respond count => { relay with writer := relay.writer.write .left count }
    | .lock side => { relay with writer := relay.writer.lock side }
    | .elsewhere policies => { relay with policies }
    | .stop => { relay with ended := true }

section Specification

/-- What a client's bytes amount to: the answer to a StartTLS request, and the stream
    whose frames are to be relayed. -/
structure Session where
  greeting : Bytes
  stream : Bytes

/-- A StartTLS request in the first frame is answered and not relayed; what follows is
    the decrypted stream. -/
def session (source : Bytes) : Session :=
  match listener.upgrade, readFrame source with
  | some accept, .ok (some (frame, rest)) =>
      match connector.upgradeRequest frame with
      | .ok (some response) => ⟨response, (accept rest).getD []⟩
      | _ => ⟨[], source⟩
  | _, _ => ⟨[], source⟩

/-- The frame gets its due: it is one to forward, or its rejection can be built. -/
def Settled (handled : Handled π) : Prop :=
  handled.forwards = true ∨ (handled.rejection connector).isSome = true

/-- Mediation and transparency. -/
structure Transparent (session : Session) (upstream : Bytes) (relay : Relay π) : Prop where
  /-- The frames handled are those of the client, in its order. -/
  requests : relay.handled.map Handled.frame <+: frames session.stream
  judged : ∀ handled ∈ relay.handled, handled.Judged connector
  /-- Only frames that policies do not see or let through are written upstream. -/
  forwarded : relay.toUpstream <+: ((relay.handled.filter Handled.forwards).map Handled.frame).flatten
  /-- The client sees upstream frames and the rejections of blocked requests. -/
  answered : ∃ responses merged, responses <+: frames upstream ∧
    Interleaving responses (relay.handled.filterMap (Handled.rejection connector)) merged ∧
    relay.toClient <+: session.greeting ++ merged.flatten
  /-- The rejections of all frames that are done with have been written in full. -/
  rejected : (∀ handled ∈ relay.done, Settled connector handled) ∧ ∃ responses merged,
    responses <+: frames upstream ∧
    Interleaving responses (relay.done.filterMap (Handled.rejection connector)) merged ∧
    merged.flatten <+: relay.writer.out
  /-- A blocked frame that is not done with has ended the connection, or its rejection is
      on its way. -/
  pending : ∀ handled ∈ relay.current, handled.blockedFor.isSome = true →
    relay.ended = true ∨ relay.writer.turn .right ≠ .idle
  /-- A frame that cannot be decoded is the last one, and ends the connection. -/
  undecodable : ∀ before handled after, relay.handled = before ++ handled :: after →
    (∃ text, connector.decode handled.frame = .error text) → after = [] ∧ relay.ended = true

end Specification

section Invariant

/-- What has been read of the client's bytes, and what is left of them. -/
def Opened (source : Bytes) (relay : Relay π) : Prop :=
  match relay.stage with
  | .accepting => relay.clientIn = source ∧ relay.greeted = [] ∧ relay.handled = [] ∧ relay.writer = .start ∧
      relay.first = none
  | .upgrading accept rest => relay.greeted ++ rest = (session connector listener source).greeting ∧
      (session connector listener source).stream = (accept relay.clientIn).getD [] ∧ relay.handled = [] ∧
      relay.writer = .start ∧ relay.first = none
  | .relaying => relay.greeted = (session connector listener source).greeting ∧
      frames (session connector listener source).stream =
        relay.handled.map Handled.frame ++ relay.first.toList ++ frames relay.clientIn

/-- What each direction has handed to the shared writer. -/
def items (relay : Relay π) : Side → List Bytes
  | .left => relay.responses
  | .right => relay.handled.filterMap (Handled.rejection connector)

/-- The frame at hand is settled unless the connection has ended, and its rejection is
    with the writer. -/
def Working (relay : Relay π) : Prop :=
  match relay.current with
  | none => relay.writer.turn .right = .idle ∧ relay.unsent = []
  | some handled => (Settled connector handled ∨ relay.ended = true) ∧
      (relay.writer.turn .right = .idle ↔ handled.rejection connector = none) ∧
      (handled.forwards = false → relay.unsent = [])

structure Sound (source upstream : Bytes) (relay : Relay π) : Prop where
  opened : relay.Opened connector listener source
  responses : frames upstream = relay.responses ++ frames relay.upstreamIn
  judged : ∀ handled ∈ relay.handled, handled.Judged connector
  forwarded : relay.toUpstream ++ relay.unsent =
    ((relay.handled.filter Handled.forwards).map Handled.frame).flatten
  client : relay.writer.Accounts (relay.items connector)
  settled : ∀ handled ∈ relay.done, Settled connector handled
  working : relay.Working connector

/-- What `handleClientFrame` makes of a frame. -/
inductive Outcome (relay : Relay π) (frame : Bytes) : Relay π → Prop where
  | failed (bind : BindState) (policies : List π) (verdict : Verdict π)
      (judged : Handled.Judged connector ⟨frame, verdict⟩) (kept : Handled.forwards ⟨frame, verdict⟩ = false)
      (silent : Handled.rejection connector ⟨frame, verdict⟩ = none) :
      Outcome relay frame { relay with bind, policies, current := some ⟨frame, verdict⟩, ended := true }
  | passed (bind : BindState) (policies : List π) (verdict : Verdict π)
      (judged : Handled.Judged connector ⟨frame, verdict⟩) (passes : Handled.forwards ⟨frame, verdict⟩ = true)
      (silent : Handled.rejection connector ⟨frame, verdict⟩ = none) :
      Outcome relay frame { relay with bind, policies, current := some ⟨frame, verdict⟩, unsent := frame }
  | refused (bind : BindState) (policies : List π) (verdict : Verdict π) (rejection : Bytes)
      (judged : Handled.Judged connector ⟨frame, verdict⟩) (kept : Handled.forwards ⟨frame, verdict⟩ = false)
      (answer : Handled.rejection connector ⟨frame, verdict⟩ = some rejection) :
      Outcome relay frame { relay with
        bind, policies, current := some ⟨frame, verdict⟩, writer := relay.writer.submit .right rejection }

variable {connector}

theorem decode_error_of_bindRequest {frame : Bytes} {text : String}
    (failed : connector.bindRequest frame = .error text) : ∃ text, connector.decode frame = .error text := by
  simp only [LdapConnector.bindRequest, LdapConnector.decodeMessage] at failed
  cases decoded : connector.ber.decode frame with
  | some message =>
      rw [decoded] at failed
      cases failed
  | none =>
      simp only [LdapConnector.decode, LdapConnector.decodeMessage, decoded]
      exact ⟨_, rfl⟩

theorem handleClientFrame_outcome (relay : Relay π) (frame : Bytes) (clock : Nat → Int) :
    Outcome connector relay frame (handleClientFrame connector relay frame clock) := by
  cases claim : connector.bindRequest frame with
  | error text =>
      simp only [handleClientFrame, claim]
      exact .failed relay.bind relay.policies .undecodable (decode_error_of_bindRequest claim) rfl rfl
  | ok claim' =>
      cases decoded : connector.decode frame with
      | error text =>
          simp only [handleClientFrame, claim, decoded]
          exact .failed _ relay.policies .undecodable ⟨text, decoded⟩ rfl rfl
      | ok asked =>
          cases asked with
          | none =>
              simp only [handleClientFrame, claim, decoded]
              exact .passed _ relay.policies .unpoliced decoded rfl rfl
          | some action =>
              simp only [handleClientFrame, claim, decoded]
              split
              · rename_i allowed
                refine .passed _ _ _ decoded ?_ ?_
                · simp only [Handled.forwards, PolicyCall.decision, allowed, Decision.isAllow]
                · simp only [Handled.rejection, Handled.blockedFor, PolicyCall.decision, allowed,
                    Option.bind_none]
              · rename_i reason blocked
                cases built : connector.buildRejection frame reason with
                | error text =>
                    refine .failed _ _ _ decoded ?_ ?_
                    · simp only [Handled.forwards, PolicyCall.decision, blocked, Decision.isAllow]
                    · simp only [Handled.rejection, Handled.blockedFor, PolicyCall.decision, blocked, built,
                        Option.bind_some, Except.toOption]
                | ok rejection =>
                    refine .refused _ _ _ rejection decoded ?_ ?_
                    · simp only [Handled.forwards, PolicyCall.decision, blocked, Decision.isAllow]
                    · simp only [Handled.rejection, Handled.blockedFor, PolicyCall.decision, blocked, built,
                        Option.bind_some, Except.toOption]

omit [Policy π] in
/-- Once the relay runs, only what is left of the client's frames matters. -/
theorem Opened.of_same {listener : Listener} {source : Bytes} {relay next : Relay π}
    (opened : relay.Opened connector listener source) (stage : relay.stage = .relaying)
    (stages : next.stage = relay.stage) (greeted : next.greeted = relay.greeted)
    (handled : next.handled = relay.handled) (first : next.first = relay.first)
    (clientIn : next.clientIn = relay.clientIn) : next.Opened connector listener source := by
  simp only [Opened, stage] at opened
  simp only [Opened, stages, stage, greeted, handled, first, clientIn]
  exact opened

namespace Sound

variable {listener} {source upstream : Bytes} {relay : Relay π}

theorem start (ip : String) (policies : List π) :
    Sound connector listener source upstream (Relay.start ip policies source upstream) where
  opened := ⟨rfl, rfl, rfl, rfl, rfl⟩
  responses := rfl
  judged := fun _ member => by cases member
  forwarded := rfl
  client := by
    have empty : (Relay.start ip policies source upstream).items connector = fun _ => [] := by
      funext side
      cases side <;> rfl
    rw [empty]
    exact SharedWriter.accounts_start
  settled := fun _ member => by cases member
  working := ⟨rfl, rfl⟩

/-- A step that touches neither the frames handled nor what is written. -/
theorem of_opened (sound : relay.Sound connector listener source upstream) {stage : Stage} {first : Option Bytes}
    {clientIn greeted : Bytes} {ended : Bool}
    (opened : Opened connector listener source { relay with stage, first, clientIn, greeted, ended })
    (going : relay.ended = false) :
    Sound connector listener source upstream { relay with stage, first, clientIn, greeted, ended } where
  opened := opened
  responses := sound.responses
  judged := sound.judged
  forwarded := sound.forwarded
  client := sound.client
  settled := sound.settled
  working := by
    have working := sound.working
    simp only [Working, going] at working ⊢
    cases current : relay.current with
    | none => simpa only [current] using working
    | some handled =>
        simp only [current, Bool.false_eq_true, or_false] at working
        exact ⟨.inl working.1, working.2⟩

theorem stopped (sound : relay.Sound connector listener source upstream) (going : relay.ended = false) :
    Sound connector listener source upstream { relay with ended := true } :=
  sound.of_opened sound.opened going

/-- The relay starts with what the peek has left of the client's bytes. -/
theorem relaying (sound : relay.Sound connector listener source upstream) (going : relay.ended = false)
    (nothing : relay.handled = []) {first : Option Bytes} {clientIn greeted : Bytes}
    (greeting : greeted = (session connector listener source).greeting)
    (stream : frames (session connector listener source).stream = first.toList ++ frames clientIn) :
    Sound connector listener source upstream { relay with stage := .relaying, first, clientIn, greeted } := by
  refine sound.of_opened ⟨greeting, ?_⟩ going
  have same : handled { relay with stage := .relaying, first, clientIn, greeted } = [] := nothing
  rw [same]
  exact stream

theorem peek (sound : relay.Sound connector listener source upstream) (going : relay.ended = false) :
    Sound connector listener source upstream (relay.peek connector listener) := by
  simp only [Relay.peek]
  split
  · rename_i stage
    have opened := sound.opened
    simp only [Opened, stage] at opened
    obtain ⟨rfl, silent, nothing, quiet, free⟩ := opened
    -- without an upgrade the relay starts on the very bytes of the client
    have plain : session connector listener relay.clientIn = ⟨[], relay.clientIn⟩ →
        Sound connector listener relay.clientIn upstream { relay with stage := .relaying } := by
      intro whole
      refine sound.relaying going nothing ?_ ?_
      · rw [silent, whole]
      · rw [free, whole]
        rfl
    split
    · rename_i upgrade
      exact plain (by simp only [session, upgrade])
    · rename_i accept upgrade
      split
      · exact sound.stopped going
      · rename_i read
        exact plain (by simp only [session, upgrade, read])
      · rename_i frame rest read
        split
        · exact sound.stopped going
        · rename_i request
          have whole : session connector listener relay.clientIn = ⟨[], relay.clientIn⟩ := by
            simp only [session, upgrade, read, request]
          refine sound.relaying going nothing ?_ ?_
          · rw [silent, whole]
          · rw [whole, frames_cons read]
            rfl
        · rename_i response request
          have whole : session connector listener relay.clientIn = ⟨response, (accept rest).getD []⟩ := by
            simp only [session, upgrade, read, request]
          refine sound.of_opened ⟨?_, ?_, nothing, quiet, free⟩ going
          · rw [silent, whole]
            rfl
          · rw [whole]
  · exact sound

theorem greet (sound : relay.Sound connector listener source upstream) (going : relay.ended = false)
    (count : Nat) : Sound connector listener source upstream (relay.greet count) := by
  cases stage : relay.stage with
  | accepting | relaying =>
      simp only [Relay.greet, stage]
      exact sound
  | upgrading accept rest =>
      have opened := sound.opened
      simp only [Opened, stage] at opened
      obtain ⟨greeting, stream, nothing, quiet, free⟩ := opened
      have parts : relay.greeted ++ rest.take count ++ rest.drop count =
          (session connector listener source).greeting := by
        rw [List.append_assoc, List.take_append_drop, greeting]
      simp only [Relay.greet, stage]
      cases left : rest.drop count with
      | cons next more =>
          rw [left] at parts
          exact sound.of_opened ⟨parts, stream, nothing, quiet, free⟩ going
      | nil =>
          rw [left] at parts
          cases accepted : accept relay.clientIn with
          | none => exact sound.of_opened ⟨parts, stream, nothing, quiet, free⟩ going
          | some decrypted =>
              rw [List.append_nil] at parts
              refine sound.relaying going nothing parts ?_
              rw [stream, accepted, free]
              rfl

/-- The client direction takes up one more frame. -/
theorem push (sound : relay.Sound connector listener source upstream) (stage : relay.stage = .relaying)
    (idle : relay.current = none) {first : Option Bytes} {clientIn frame unsent : Bytes} {bind : BindState}
    {policies : List π} {verdict : Verdict π} {writer : SharedWriter UInt8} {ended : Bool}
    (taken : relay.first.toList ++ frames relay.clientIn = frame :: (first.toList ++ frames clientIn))
    (judged : Handled.Judged connector ⟨frame, verdict⟩)
    (sent : unsent = if Handled.forwards ⟨frame, verdict⟩ = true then frame else [])
    (client : writer.Accounts (Function.update (relay.items connector) .right
      (relay.items connector .right ++ (Handled.rejection connector ⟨frame, verdict⟩).toList)))
    (working : Working connector { relay with
      bind, policies, first, clientIn, current := some ⟨frame, verdict⟩, unsent, writer, ended }) :
    Sound connector listener source upstream { relay with
      bind, policies, first, clientIn, current := some ⟨frame, verdict⟩, unsent, writer, ended } := by
  have before : relay.handled = relay.done := by
    simp only [Relay.handled, idle, Option.toList_none, List.append_nil]
  have free : relay.unsent = [] := by
    have working := sound.working
    simp only [Working, idle] at working
    exact working.2
  have opened := sound.opened
  simp only [Opened, stage, before] at opened
  refine ⟨?_, sound.responses, ?_, ?_, ?_, sound.settled, working⟩
  · simp only [Opened, stage, Relay.handled, Option.toList_some, List.map_append, List.map_cons, List.map_nil]
    refine ⟨opened.1, ?_⟩
    rw [opened.2, List.append_assoc, taken]
    simp only [List.append_assoc, List.cons_append, List.nil_append]
  · intro handled member
    rcases List.mem_append.mp member with old | new
    · exact sound.judged handled (by rwa [before])
    · rw [List.mem_singleton.mp new]
      exact judged
  · have sofar := sound.forwarded
    rw [before, free, List.append_nil] at sofar
    simp only [Relay.handled, Option.toList_some, List.filter_append, List.map_append, List.flatten_append, sofar,
      sent]
    cases passes : Handled.forwards ⟨frame, verdict⟩ with
    | true => simp only [if_true, List.filter_cons, passes, List.filter_nil, List.map_cons, List.map_nil,
        List.flatten_singleton]
    | false => simp only [Bool.false_eq_true, if_false, List.filter_cons, passes, List.filter_nil, List.map_nil,
        List.flatten_nil]
  · refine Eq.mp (congrArg _ ?_) client
    funext side
    cases side with
    | left => rfl
    | right =>
        simp only [Function.update_self, items, Relay.handled, idle, Option.toList_none, Option.toList_some,
          List.append_nil, List.filterMap_append, List.filterMap_cons, List.filterMap_nil]
        cases Handled.rejection connector ⟨frame, verdict⟩ <;> rfl

theorem of_outcome (sound : relay.Sound connector listener source upstream) (stage : relay.stage = .relaying)
    (idle : relay.current = none) {first : Option Bytes} {clientIn frame : Bytes} {next : Relay π}
    (taken : relay.first.toList ++ frames relay.clientIn = frame :: (first.toList ++ frames clientIn))
    (outcome : Outcome connector { relay with first, clientIn } frame next) :
    Sound connector listener source upstream next := by
  have working := sound.working
  simp only [Working, idle] at working
  obtain ⟨quiet, free⟩ := working
  have same : Function.update (relay.items connector) .right (relay.items connector .right ++ []) =
      relay.items connector := by
    rw [List.append_nil, Function.update_eq_self]
  cases outcome with
  | failed bind policies verdict judged kept silent =>
      refine sound.push stage idle taken judged ?_ ?_ ?_
      · simp only [free, kept, Bool.false_eq_true, if_false]
      · rw [silent]
        exact Eq.mpr (congrArg _ same) sound.client
      · exact ⟨.inr rfl, iff_of_true quiet silent, fun _ => free⟩
  | passed bind policies verdict judged passes silent =>
      refine sound.push stage idle taken judged ?_ ?_ ?_
      · simp only [passes, if_true]
      · rw [silent]
        exact Eq.mpr (congrArg _ same) sound.client
      · refine ⟨.inl (.inl passes), iff_of_true quiet silent, fun kept => ?_⟩
        rw [passes] at kept
        cases kept
  | refused bind policies verdict rejection judged kept answer =>
      refine sound.push stage idle taken judged ?_ ?_ ?_
      · simp only [free, kept, Bool.false_eq_true, if_false]
      · rw [answer]
        exact sound.client.submit quiet rejection
      · refine ⟨.inl (.inr ?_), iff_of_false ?_ ?_, fun _ => free⟩
        · rw [answer]
          rfl
        · rw [SharedWriter.turn_submit, if_pos rfl]
          exact fun waiting => by cases waiting
        · rw [answer]
          exact fun none => by cases none

theorem request (sound : relay.Sound connector listener source upstream) (going : relay.ended = false)
    (clock : Nat → Int) : Sound connector listener source upstream (relay.request connector clock) := by
  simp only [Relay.request]
  split
  · rename_i stage idle
    split
    · rename_i frame first
      refine sound.of_outcome stage idle ?_ (handleClientFrame_outcome _ frame clock)
      rw [first]
      rfl
    · rename_i first
      split
      · exact sound.stopped going
      · exact sound.stopped going
      · rename_i frame rest read
        refine sound.of_outcome stage idle ?_ (handleClientFrame_outcome _ frame clock)
        rw [first, frames_cons read]
        rfl
  · exact sound

/-- The directions do nothing before the relay starts. -/
theorem relaying_or (sound : relay.Sound connector listener source upstream) :
    relay.stage = .relaying ∨ (relay.handled = [] ∧ relay.writer = .start) := by
  have opened := sound.opened
  cases stage : relay.stage with
  | relaying => exact .inl rfl
  | accepting | upgrading =>
      simp only [Opened, stage] at opened
      exact .inr ⟨opened.2.2.1, opened.2.2.2.1⟩

theorem relaying_of_current (sound : relay.Sound connector listener source upstream) {handled : Handled π}
    (current : relay.current = some handled) : relay.stage = .relaying := by
  rcases sound.relaying_or with stage | ⟨nothing, -⟩
  · exact stage
  · simp only [Relay.handled, current, Option.toList_some, List.append_eq_nil_iff, List.cons_ne_self,
      and_false] at nothing

/-- While the client direction writes to the client, it rejects the frame at hand. -/
theorem rejecting (sound : relay.Sound connector listener source upstream)
    (busy : relay.writer.turn .right ≠ .idle) : ∃ handled, relay.current = some handled ∧ relay.unsent = [] := by
  have working := sound.working
  cases current : relay.current with
  | none =>
      simp only [Working, current] at working
      exact absurd working.1 busy
  | some handled =>
      simp only [Working, current] at working
      refine ⟨handled, rfl, working.2.2 (Bool.eq_false_iff.mpr fun passes => ?_)⟩
      exact busy (working.2.1.mpr (Handled.rejection_of_forwards passes))

/-- The directions go on with their writes. -/
theorem carryOn (sound : relay.Sound connector listener source upstream) {toUpstream unsent : Bytes}
    {writer : SharedWriter UInt8} (stage : relay.stage = .relaying)
    (sent : toUpstream ++ unsent = relay.toUpstream ++ relay.unsent)
    (client : writer.Accounts (relay.items connector))
    (working : Working connector { relay with toUpstream, unsent, writer }) :
    Sound connector listener source upstream { relay with toUpstream, unsent, writer } := by
  refine ⟨?_, sound.responses, sound.judged, sent.trans sound.forwarded, client, sound.settled, working⟩
  exact sound.opened.of_same stage rfl rfl rfl rfl rfl

/-- Another party writes, or somebody gets the lock. -/
theorem of_writer (sound : relay.Sound connector listener source upstream) {writer : SharedWriter UInt8}
    (stage : relay.stage = .relaying) (client : writer.Accounts (relay.items connector))
    (idle : writer.turn .right = .idle ↔ relay.writer.turn .right = .idle) :
    Sound connector listener source upstream { relay with writer } := by
  refine sound.carryOn stage rfl client ?_
  have working := sound.working
  simp only [Working, idle] at working ⊢
  exact working

/-- The frame at hand joins those that are done with. -/
theorem finish (sound : relay.Sound connector listener source upstream) {handled : Handled π}
    (current : relay.current = some handled) (going : relay.ended = false) {toUpstream unsent : Bytes}
    {writer : SharedWriter UInt8} (sent : toUpstream = relay.toUpstream ++ relay.unsent) (free : unsent = [])
    (client : writer.Accounts (relay.items connector)) (quiet : writer.turn .right = .idle) :
    Sound connector listener source upstream (Relay.finish { relay with toUpstream, unsent, writer }) := by
  have stage := sound.relaying_of_current current
  have same : Relay.handled (Relay.finish { relay with toUpstream, unsent, writer }) = relay.handled :=
    List.append_nil _
  have working := sound.working
  simp only [Working, current, going, Bool.false_eq_true, or_false] at working
  refine ⟨sound.opened.of_same stage rfl rfl same rfl rfl, sound.responses, ?_, ?_, ?_, ?_, ⟨quiet, free⟩⟩
  · rw [same]
    exact sound.judged
  · rw [same, ← sound.forwarded, ← sent]
    simp only [Relay.finish, free, List.append_nil]
  · refine Eq.mp (congrArg _ ?_) client
    funext side
    cases side with
    | left => rfl
    | right => simp only [items, same]
  · intro older member
    rcases List.mem_append.mp member with old | new
    · exact sound.settled older old
    · simp only [current, Option.toList_some, List.mem_singleton] at new
      rw [new]
      exact working.1

theorem forward (sound : relay.Sound connector listener source upstream) (going : relay.ended = false)
    (count : Nat) : Sound connector listener source upstream (relay.forward count) := by
  have working := sound.working
  simp only [Relay.forward]
  split
  · exact sound
  · rename_i handled current
    simp only [Working, current] at working
    split
    · rename_i passes
      have silent : handled.rejection connector = none := Handled.rejection_of_forwards passes
      have parts : relay.toUpstream ++ relay.unsent.take count ++ relay.unsent.drop count =
          relay.toUpstream ++ relay.unsent := by
        rw [List.append_assoc, List.take_append_drop]
      split
      · rename_i finished
        rw [finished, List.append_nil] at parts
        exact sound.finish current going parts finished sound.client (working.2.1.mpr silent)
      · refine sound.carryOn (sound.relaying_of_current current) parts sound.client ?_
        simp only [Working, current]
        refine ⟨working.1, working.2.1, fun kept => ?_⟩
        rw [passes] at kept
        cases kept
    · exact sound

theorem reject (sound : relay.Sound connector listener source upstream) (going : relay.ended = false)
    (count : Nat) : Sound connector listener source upstream (relay.reject count) := by
  simp only [Relay.reject]
  split
  · rename_i rest turn
    obtain ⟨handled, current, free⟩ := sound.rejecting (by rw [turn]; exact fun idle => by cases idle)
    have client := sound.client.write .right count
    have after := SharedWriter.write_turn_self turn count
    split
    · rename_i finished
      rw [finished] at after
      refine sound.finish current going ?_ free client after
      rw [free, List.append_nil]
    · rename_i more
      refine sound.of_writer (sound.relaying_of_current current) client ?_
      rw [after, turn, Turn.after_idle_iff]
      exact iff_of_false more (fun idle => by cases idle)
  · exact sound

theorem response (sound : relay.Sound connector listener source upstream) (going : relay.ended = false) :
    Sound connector listener source upstream (relay.response connector) := by
  simp only [Relay.response]
  split
  · rename_i stage idle
    split
    · exact sound.stopped going
    · exact sound.stopped going
    · rename_i frame rest read
      split
      · exact sound.stopped going
      · rename_i bind resolved
        refine ⟨sound.opened.of_same stage rfl rfl rfl rfl rfl, ?_, sound.judged, sound.forwarded, ?_,
          sound.settled, ?_⟩
        · rw [sound.responses, frames_cons read, List.append_assoc]
          rfl
        · refine Eq.mp (congrArg _ ?_) (sound.client.submit idle frame)
          funext side
          cases side <;> rfl
        · have working := sound.working
          simp only [Working, SharedWriter.turn_submit, reduceCtorEq, if_false] at working ⊢
          exact working
  · exact sound

theorem respond (sound : relay.Sound connector listener source upstream) (count : Nat) :
    Sound connector listener source upstream { relay with writer := relay.writer.write .left count } := by
  rcases sound.relaying_or with stage | ⟨-, fresh⟩
  · refine sound.of_writer stage (sound.client.write .left count) ?_
    exact iff_of_eq (congrArg (· = Turn.idle) (relay.writer.write_turn_other .left count))
  · have same : relay.writer.write .left count = relay.writer := by
      rw [fresh, SharedWriter.write_start]
    rw [same]
    exact sound

theorem lock (sound : relay.Sound connector listener source upstream) (side : Side) :
    Sound connector listener source upstream { relay with writer := relay.writer.lock side } := by
  rcases sound.relaying_or with stage | ⟨-, fresh⟩
  · exact sound.of_writer stage (sound.client.lock side) (relay.writer.lock_turn_idle side .right)
  · have same : relay.writer.lock side = relay.writer := by
      rw [fresh, SharedWriter.lock_start]
    rw [same]
    exact sound

theorem step (sound : relay.Sound connector listener source upstream) (label : RelayLabel π) :
    Sound connector listener source upstream (relay.step connector listener label) := by
  simp only [Relay.step]
  split
  · exact sound
  · rename_i going
    have going := Bool.eq_false_iff.mpr going
    cases label with
    | peek => exact sound.peek going
    | greet count => exact sound.greet going count
    | request clock => exact sound.request going clock
    | forward count => exact sound.forward going count
    | reject count => exact sound.reject going count
    | response => exact sound.response going
    | respond count => exact sound.respond count
    | lock side => exact sound.lock side
    | elsewhere policies => exact ⟨sound.opened, sound.responses, sound.judged, sound.forwarded, sound.client,
        sound.settled, sound.working⟩
    | stop => exact sound.stopped going

theorem run (sound : relay.Sound connector listener source upstream) (labels : List (RelayLabel π)) :
    Sound connector listener source upstream (labels.foldl (Relay.step connector listener) relay) :=
  List.foldlRecOn labels (Relay.step connector listener) sound fun _ kept label _ => kept.step label

theorem responses_prefix (sound : relay.Sound connector listener source upstream) :
    relay.responses <+: frames upstream := by
  rw [sound.responses]
  exact List.prefix_append _ _

theorem requests_prefix (sound : relay.Sound connector listener source upstream) :
    relay.handled.map Handled.frame <+: frames (session connector listener source).stream := by
  rcases sound.relaying_or with stage | ⟨nothing, -⟩
  · have opened := sound.opened
    simp only [Opened, stage] at opened
    rw [opened.2, List.append_assoc]
    exact List.prefix_append _ _
  · rw [nothing]
    exact List.nil_prefix

theorem toClient_prefix (sound : relay.Sound connector listener source upstream) {bytes : Bytes}
    (written : relay.writer.out <+: bytes) :
    relay.toClient <+: (session connector listener source).greeting ++ bytes := by
  have opened := sound.opened
  cases stage : relay.stage with
  | relaying =>
      simp only [Opened, stage] at opened
      rw [toClient, opened.1]
      exact (List.prefix_append_right_inj _).mpr written
  | accepting =>
      simp only [Opened, stage] at opened
      rw [toClient, opened.2.1, opened.2.2.2.1]
      exact List.nil_prefix
  | upgrading accept rest =>
      simp only [Opened, stage] at opened
      obtain ⟨greeting, -, -, fresh, -⟩ := opened
      rw [toClient, fresh, ← greeting, List.append_assoc]
      exact (List.prefix_append_right_inj _).mpr List.nil_prefix

/-- Of the rejections handed to the writer, that of the frame at hand is the last one. -/
theorem rejections_done (sound : relay.Sound connector listener source upstream) {rejections : List Bytes}
    (idle : relay.writer.turn .right = .idle → relay.items connector .right = rejections)
    (busy : relay.writer.turn .right ≠ .idle → ∃ item, relay.items connector .right = rejections ++ [item]) :
    relay.done.filterMap (Handled.rejection connector) = rejections := by
  have working := sound.working
  simp only [items, handled, List.filterMap_append] at idle busy
  cases current : relay.current with
  | none =>
      simp only [Working, current] at working
      simpa only [current, Option.toList_none, List.filterMap_nil, List.append_nil] using idle working.1
  | some handled =>
      simp only [Working, current] at working
      simp only [current, Option.toList_some, List.filterMap_cons, List.filterMap_nil] at idle busy
      cases answer : handled.rejection connector with
      | none => simpa only [answer, List.append_nil] using idle (working.2.1.mpr answer)
      | some rejection =>
          simp only [answer, reduceCtorEq, iff_false] at working
          obtain ⟨item, last⟩ := busy working.2.1
          simp only [answer] at last
          exact (List.append_inj' last rfl).1

/-- A frame that cannot be decoded is neither forwarded nor rejected. -/
theorem not_settled {handled : Handled π} (judged : handled.Judged connector)
    (failed : ∃ text, connector.decode handled.frame = .error text) : ¬ Settled connector handled := by
  obtain ⟨text, failed⟩ := failed
  cases verdict : handled.verdict with
  | undecodable =>
      simp only [Settled, Handled.forwards, Handled.rejection, Handled.blockedFor, verdict, Bool.false_eq_true,
        Option.bind_none, Option.isSome_none, or_self, not_false_eq_true]
  | unpoliced | judged =>
      simp only [Handled.Judged, verdict, failed, reduceCtorEq] at judged

theorem ended_of_unsettled (sound : relay.Sound connector listener source upstream) {handled : Handled π}
    (current : relay.current = some handled) (unsettled : ¬ Settled connector handled) : relay.ended = true := by
  have working := sound.working
  simp only [Working, current] at working
  exact working.1.resolve_left unsettled

theorem pending (sound : relay.Sound connector listener source upstream) {handled : Handled π}
    (current : relay.current = some handled) (blocked : handled.blockedFor.isSome = true) :
    relay.ended = true ∨ relay.writer.turn .right ≠ .idle := by
  have working := sound.working
  simp only [Working, current] at working
  rcases working with ⟨settled | ended, idle, -⟩
  · rcases settled with passes | answer
    · rw [Handled.blockedFor_of_forwards passes] at blocked
      cases blocked
    · refine .inr fun quiet => ?_
      rw [idle.mp quiet] at answer
      cases answer
  · exact .inl ended

theorem undecodable (sound : relay.Sound connector listener source upstream) {before after : List (Handled π)}
    {handled : Handled π} (split : relay.handled = before ++ handled :: after)
    (failed : ∃ text, connector.decode handled.frame = .error text) : after = [] ∧ relay.ended = true := by
  have unsettled : ¬ Settled connector handled := by
    refine not_settled (sound.judged handled ?_) failed
    rw [split]
    exact List.mem_append_right before List.mem_cons_self
  have unfinished : handled ∉ relay.done := fun member => unsettled (sound.settled handled member)
  cases current : relay.current with
  | none =>
      rw [Relay.handled, current, Option.toList_none, List.append_nil] at split
      rw [split] at unfinished
      exact absurd (List.mem_append_right before List.mem_cons_self) unfinished
  | some latest =>
      rw [Relay.handled, current, Option.toList_some] at split
      rcases List.eq_nil_or_concat after with rfl | ⟨between, final, rfl⟩
      · obtain ⟨-, same⟩ := List.append_inj' split rfl
        rw [List.singleton_inj.mp same] at current
        exact ⟨rfl, sound.ended_of_unsettled current unsettled⟩
      · rw [List.concat_eq_append, ← List.cons_append, ← List.append_assoc] at split
        obtain ⟨earlier, -⟩ := List.append_inj' split rfl
        rw [earlier] at unfinished
        exact absurd (List.mem_append_right before List.mem_cons_self) unfinished

theorem transparent (sound : relay.Sound connector listener source upstream) :
    Transparent connector (session connector listener source) upstream relay where
  requests := sound.requests_prefix
  judged := sound.judged
  forwarded := ⟨relay.unsent, sound.forwarded⟩
  answered := by
    obtain ⟨merged, mixed, written⟩ := sound.client.out_prefix
    exact ⟨relay.responses, merged, sound.responses_prefix, mixed, sound.toClient_prefix written⟩
  rejected := by
    obtain ⟨done, whole, mixed, written, progress⟩ := sound.client.whole_prefix
    obtain ⟨-, idle, busy⟩ := progress .right
    refine ⟨sound.settled, done .left, whole, (progress .left).1.trans sound.responses_prefix, ?_, written⟩
    rw [sound.rejections_done idle busy]
    exact mixed
  pending := fun _ current => sound.pending current
  undecodable := fun _ _ _ split failed => sound.undecodable split failed

end Sound

end Invariant

/-- A StartTLS request with message ID 1. -/
def startTlsRequest : Bytes := [0x30, 0x1d, 0x02, 0x01, 0x01, 0x77, 0x18, 0x80, 0x16] ++ asBytes startTlsOid

/-- The response that confirms it. -/
def startTlsResponse : Bytes := [0x30, 0x0c, 0x02, 0x01, 0x01, 0x78, 0x07, 0x0a, 0x01, 0x00, 0x04, 0x00, 0x04, 0x00]

def startTlsConnector : LdapConnector where
  ber :=
    { decode := fun frame =>
        if frame = startTlsRequest then some ⟨1, .extendedReq ⟨asBytes startTlsOid, none⟩⟩ else none
      encode := fun message =>
        if message = ⟨1, .extendedResp ⟨⟨.success, "", ""⟩, none, none⟩⟩ then some startTlsResponse else none
      decodePasswdModify := fun _ => none }
  unicode := ⟨fun char => [char], fun _ => false, fun _ => false⟩
  dnHash := fun _ => 0

/-- StartTLS is on offer; the only client hangs up before the handshake. -/
def startTlsListener : Listener := ⟨false, some fun _ => none⟩

/-- The client asks for TLS, and reads the answer. -/
def startTlsRun : Relay ThresholdPolicy :=
  [.peek, .greet 14].foldl (step startTlsConnector startTlsListener) (start "10.0.0.1" [] startTlsRequest [])

end Relay

end AiProtect
