import AiProtect.Proxy.BindTracking
import AiProtect.Proxy.Mediation

/-! # Whose request it is

A call is judged, counted and logged under the identity its connection has when the call
begins. Connections come and go, and their frames interleave in any order; the identity of a
call still depends on nothing but the peer address its own connection was accepted from and
the frames of that connection, in both directions: each connection runs its own `BindTrack`.

So a name is used for a call only if the call's own connection claimed it and was then told
of success, in the response that came next under the ID of the claim.
-/

namespace AiProtect

open Runs Places

namespace BindTrack

variable (connector : LdapConnector)

/-- A frame that stages or resolves a claim under a message ID. -/
def Concerns (messageId : Nat) : BindEvent → Prop
  | .request frame => ∃ dn, connector.bindRequest frame = .ok (some (messageId, dn))
  | .response frame => ∃ success, connector.bindResponse frame = .ok (some (messageId, success))

/-- The last frame that concerned the message ID claimed the name. -/
def Staged (events : List BindEvent) (messageId : Nat) (dn : String) : Prop :=
  ∃ before request since, events = before ++ .request request :: since ∧
    connector.bindRequest request = .ok (some (messageId, dn)) ∧ ∀ event ∈ since, ¬ Concerns connector messageId event

/-- The name was claimed, and the next frame that concerned the claim's message ID reported
    success. -/
def Vouched (events : List BindEvent) (dn : String) : Prop :=
  ∃ before response after messageId, events = before ++ .response response :: after ∧
    Staged connector before messageId dn ∧ connector.bindResponse response = .ok (some (messageId, true))

variable {connector}

theorem Staged.snoc {events : List BindEvent} {messageId : Nat} {dn : String}
    (staged : Staged connector events messageId dn) {event : BindEvent} (other : ¬ Concerns connector messageId event) :
    Staged connector (events ++ [event]) messageId dn := by
  obtain ⟨before, request, since, rfl, claims, quiet⟩ := staged
  refine ⟨before, request, since ++ [event], by rw [List.append_assoc, List.cons_append], claims, ?_⟩
  intro later member
  rcases List.mem_append.mp member with old | new
  · exact quiet later old
  · rw [List.mem_singleton.mp new]
    exact other

theorem Vouched.snoc {events : List BindEvent} {dn : String} (vouched : Vouched connector events dn)
    (event : BindEvent) : Vouched connector (events ++ [event]) dn := by
  obtain ⟨before, response, after, messageId, rfl, staged, reported⟩ := vouched
  exact ⟨before, response, after ++ [event], messageId, by rw [List.append_assoc, List.cons_append], staged, reported⟩

variable (connector) in
/-- What is staged was claimed last, and who is bound was vouched for. -/
structure Accountable (ip : String) (events : List BindEvent) (state : BindState) : Prop where
  staged : ∀ messageId dn, state.pending.lookup messageId = some dn → Staged connector events messageId dn
  bound : state.identity = Identity.fromPeerAddr ip ∨
    ∃ dn, state.identity = Identity.fromBindDn dn ∧ Vouched connector events dn

namespace Accountable

variable {ip : String} {events : List BindEvent} {state : BindState}

/-- A frame that concerns no claim. -/
theorem quiet (accountable : Accountable connector ip events state) {event : BindEvent}
    (other : ∀ messageId, ¬ Concerns connector messageId event) :
    Accountable connector ip (events ++ [event]) state := by
  refine ⟨fun messageId dn found => (accountable.staged messageId dn found).snoc (other messageId), ?_⟩
  rcases accountable.bound with peer | ⟨dn, same, vouched⟩
  · exact .inl peer
  · exact .inr ⟨dn, same, vouched.snoc event⟩

theorem stage (accountable : Accountable connector ip events state) {frame : Bytes} {messageId : Nat} {dn : String}
    (claims : connector.bindRequest frame = .ok (some (messageId, dn))) :
    Accountable connector ip (events ++ [.request frame]) (state.stage (some (messageId, dn))) := by
  constructor
  · intro id name found
    rcases lookup_stagePendingBind found with ⟨rfl, rfl⟩ | ⟨other, old⟩
    · exact ⟨events, frame, [], rfl, claims, fun _ member => absurd member List.not_mem_nil⟩
    · refine (accountable.staged id name old).snoc ?_
      rintro ⟨claimed, same⟩
      rw [claims] at same
      cases same
      exact other rfl
  · rcases accountable.bound with peer | ⟨name, same, vouched⟩
    · exact .inl peer
    · exact .inr ⟨name, same, vouched.snoc _⟩

theorem resolve (accountable : Accountable connector ip events state) {frame : Bytes} {messageId : Nat}
    {success : Bool} (responds : connector.bindResponse frame = .ok (some (messageId, success))) :
    Accountable connector ip (events ++ [.response frame]) (state.resolve messageId success) := by
  have mine : ∀ id, id ≠ messageId → ¬ Concerns connector id (.response frame) := by
    rintro id other ⟨reported, same⟩
    rw [responds] at same
    cases same
    exact other rfl
  have before : state.identity = Identity.fromPeerAddr ip ∨
      ∃ dn, state.identity = Identity.fromBindDn dn ∧ Vouched connector (events ++ [.response frame]) dn := by
    rcases accountable.bound with peer | ⟨name, same, vouched⟩
    · exact .inl peer
    · exact .inr ⟨name, same, vouched.snoc _⟩
  cases found : state.pending.lookup messageId with
  | none =>
      simp only [BindState.resolve, found]
      refine ⟨fun id dn staged => (accountable.staged id dn staged).snoc (mine id ?_), before⟩
      rintro rfl
      rw [found] at staged
      cases staged
  | some dn =>
      simp only [BindState.resolve, found]
      constructor
      · intro id name staged
        rw [RankIndex.lookup_erase_ite] at staged
        split at staged
        · cases staged
        · rename_i other
          exact (accountable.staged id name staged).snoc (mine id other)
      · cases success with
        | false => exact before
        | true =>
            exact .inr ⟨dn, rfl, events, frame, [], messageId, rfl, accountable.staged messageId dn found, responds⟩

theorem start (connector : LdapConnector) (ip : String) : Accountable connector ip [] (.start ip) :=
  ⟨fun _ _ staged => (by cases staged), .inl rfl⟩

/-- A frame of either direction keeps the identity accounted for, as long as the connection
    goes on. -/
theorem step {track : BindTrack} (accountable : Accountable connector ip events track.state)
    (going : track.closed = false) (event : BindEvent) :
    Accountable connector ip (events ++ [event]) (track.step connector event).state := by
  cases event with
  | request frame =>
      simp only [BindTrack.step, going, Bool.false_eq_true, if_false, request]
      rcases claims : connector.bindRequest frame with text | _ | ⟨messageId, dn⟩
      · refine accountable.quiet ?_
        rintro messageId ⟨dn, same⟩
        rw [claims] at same
        cases same
      · refine accountable.quiet ?_
        rintro messageId ⟨dn, same⟩
        rw [claims] at same
        cases same
      · exact accountable.stage claims
  | response frame =>
      simp only [BindTrack.step, going, Bool.false_eq_true, if_false, response_eq]
      rcases responds : connector.bindResponse frame with text | _ | ⟨messageId, success⟩
      · refine accountable.quiet ?_
        rintro messageId ⟨success, same⟩
        rw [responds] at same
        cases same
      · refine accountable.quiet ?_
        rintro messageId ⟨success, same⟩
        rw [responds] at same
        cases same
      · exact accountable.resolve responds

end Accountable

end BindTrack

/-- Its task waits for frames. -/
def Connection.ready (connection : Connection) : Bool := !connection.closed && connection.judging.isNone

theorem Connection.ready_iff {connection : Connection} :
    connection.ready = true ↔ ¬ (connection.closed = true ∨ connection.judging.isSome = true) := by
  simp only [ready, Bool.and_eq_true, Bool.not_eq_true', not_or, Bool.not_eq_true, Option.isSome_eq_false_iff]

namespace Process

variable {connector : LdapConnector} {parse : String → Option (List PolicyEntry)}

/-- The connection a frame comes in on. -/
def speaker : ProcessLabel → Option Nat
  | .receive connection _ | .respond connection _ => some connection
  | _ => none

/-- The frame that a connection handles in a step. -/
def heardAt (index : Nat) (process : Process) : ProcessLabel → List BindEvent
  | .receive connection frame =>
      if connection = index ∧ process.connections[index]?.any Connection.ready = true then [.request frame] else []
  | .respond connection frame =>
      if connection = index ∧ process.connections[index]?.any Connection.ready = true then [.response frame] else []
  | _ => []

variable (connector parse) in
/-- The frames that a connection handles in a run, those of both directions, in their order. -/
def heard (index : Nat) (process : Process) (labels : List ProcessLabel) : List BindEvent :=
  emits (step connector parse) (heardAt index) process labels

/-- The entry still accepts, and the connection it accepts next gets this index. -/
def Accepts (process : Process) (entry index : Nat) : Prop :=
  process.connections.length = index ∧ ∃ found, process.entries[entry]? = some found ∧ found.serving = true

section Steps

variable (connector) in
/-- What a step can do to the bind state of a connection, with the frames it hears in it. -/
inductive Listens (earlier : Connection) : List BindEvent → Connection → Prop where
  | nothing {later : Connection} (bind : later.bind = earlier.bind)
      (going : later.closed = false → earlier.closed = false) : Listens earlier [] later
  | hears {event : BindEvent} {later : Connection} (going : earlier.closed = false)
      (moves : ∀ track : BindTrack, track.state = earlier.bind → track.closed = false →
        (track.step connector event).state = later.bind ∧
          (later.closed = false → (track.step connector event).closed = false)) : Listens earlier [event] later

variable (connector) in
/-- Every connection that is there after a step was there before, and listened. -/
def Overheard (process : Process) (label : ProcessLabel) (after : Process) : Prop :=
  ∀ (index : Nat) (connection : Connection), after.connections[index]? = some connection →
    ∃ earlier, process.connections[index]? = some earlier ∧
      Listens connector earlier (process.heardAt index label) connection

variable {process after : Process} {label : ProcessLabel} {other : Nat} {mine next : Connection}

theorem heardAt_silent {index : Nat} (apart : speaker label ≠ some index) : process.heardAt index label = [] := by
  cases label with
  | receive _ _ | respond _ _ => exact if_neg fun both => apart (congrArg some both.1)
  | _ => rfl

theorem heardAt_deaf {index : Nat} (unready : process.connections[index]?.any Connection.ready ≠ true) :
    process.heardAt index label = [] := by
  cases label with
  | receive _ _ | respond _ _ => exact if_neg fun both => unready both.2
  | _ => rfl

theorem Overheard.same (connections : after.connections = process.connections)
    (silent : ∀ index, speaker label = some index → process.connections[index]?.any Connection.ready ≠ true) :
    Overheard connector process label after := by
  intro index connection found
  have nothing : process.heardAt index label = [] := by
    by_cases here : speaker label = some index
    · exact heardAt_deaf (silent index here)
    · exact heardAt_silent here
  rw [nothing]
  rw [connections] at found
  exact ⟨connection, found, .nothing rfl id⟩

theorem Overheard.set (connections : after.connections = process.connections.set other next)
    (there : process.connections[other]? = some mine)
    (listens : Listens connector mine (process.heardAt other label) next)
    (elsewhere : ∀ index, speaker label = some index → index = other) : Overheard connector process label after := by
  intro index connection found
  rw [connections] at found
  rcases getElem?_set_cases found with ⟨rfl, rfl⟩ | ⟨apart, old⟩
  · exact ⟨mine, there, listens⟩
  · rw [heardAt_silent fun here => apart (elsewhere index here)]
    exact ⟨connection, old, .nothing rfl id⟩

/-- A connection that is closed, or in the middle of a call, takes no frame. -/
theorem Overheard.busy (spoken : speaker label = some other) (there : process.connections[other]? = some mine)
    (busy : mine.closed = true ∨ mine.judging.isSome = true) : Overheard connector process label process := by
  refine .same rfl fun index here => ?_
  rw [spoken] at here
  cases here
  rw [there, Option.any_some]
  exact fun ready => Connection.ready_iff.mp ready busy

theorem Overheard.nobody (spoken : speaker label = some other) (there : process.connections[other]? = none) :
    Overheard connector process label process := by
  refine .same rfl fun index here => ?_
  rw [spoken] at here
  cases here
  rw [there]
  exact Bool.false_ne_true

theorem overheard_receive (process : Process) (other : Nat) (frame : Bytes) :
    Overheard connector process (.receive other frame) (process.receive connector other frame) := by
  have elsewhere : ∀ index, speaker (.receive other frame) = some index → index = other :=
    fun index here => (Option.some.inj here).symm
  cases there : process.connections[other]? with
  | none =>
      simp only [receive, there]
      exact .nobody rfl there
  | some mine =>
      simp only [receive, there]
      split
      · rename_i busy
        exact .busy rfl there busy
      · rename_i idle
        have heard : process.heardAt other (.receive other frame) = [.request frame] := by
          rw [heardAt, there]
          exact if_pos ⟨rfl, Connection.ready_iff.mpr idle⟩
        have going : mine.closed = false := Bool.eq_false_iff.mpr fun closed => idle (.inl closed)
        split
        · rename_i claims
          refine .set rfl there ?_ elsewhere
          rw [heard]
          refine .hears going fun track same onward => ⟨?_, fun ended => (by cases ended)⟩
          simp only [BindTrack.step, onward, Bool.false_eq_true, if_false, BindTrack.request, claims]
          exact same
        · rename_i claim claims
          have moves : ∀ later : Connection, later.bind = mine.bind.stage claim →
              Listens connector mine (process.heardAt other (.receive other frame)) later := by
            intro later staged
            rw [heard]
            refine .hears going fun track same onward => ?_
            simp only [BindTrack.step, onward, Bool.false_eq_true, if_false, BindTrack.request, claims]
            exact ⟨by rw [same, staged], fun _ => trivial⟩
          split
          · exact .set rfl there (moves _ rfl) elsewhere
          · exact .set rfl there (moves _ rfl) elsewhere
          · exact .set rfl there (moves _ rfl) elsewhere

theorem overheard_respond (process : Process) (other : Nat) (frame : Bytes) :
    Overheard connector process (.respond other frame) (process.respond connector other frame) := by
  have elsewhere : ∀ index, speaker (.respond other frame) = some index → index = other :=
    fun index here => (Option.some.inj here).symm
  cases there : process.connections[other]? with
  | none =>
      simp only [respond, there]
      exact .nobody rfl there
  | some mine =>
      simp only [respond, there]
      split
      · rename_i busy
        exact .busy rfl there busy
      · rename_i idle
        have heard : process.heardAt other (.respond other frame) = [.response frame] := by
          rw [heardAt, there]
          exact if_pos ⟨rfl, Connection.ready_iff.mpr idle⟩
        have going : mine.closed = false := Bool.eq_false_iff.mpr fun closed => idle (.inl closed)
        simp only [resolvePendingBind_eq]
        rcases responds : connector.bindResponse frame with text | _ | ⟨messageId, success⟩
        · refine .set rfl there ?_ elsewhere
          rw [heard]
          refine .hears going fun track same onward => ⟨?_, fun ended => (by cases ended)⟩
          simp only [BindTrack.step, onward, Bool.false_eq_true, if_false, BindTrack.response_eq, responds]
          exact same
        · refine .set rfl there ?_ elsewhere
          rw [heard]
          refine .hears going fun track same onward => ?_
          simp only [BindTrack.step, onward, Bool.false_eq_true, if_false, BindTrack.response_eq, responds]
          exact ⟨same, fun _ => trivial⟩
        · refine .set rfl there ?_ elsewhere
          rw [heard]
          refine .hears going fun track same onward => ?_
          simp only [BindTrack.step, onward, Bool.false_eq_true, if_false, BindTrack.response_eq, responds]
          exact ⟨by rw [same], fun _ => trivial⟩

/-- The steps that are not about frames leave the bind state of every connection alone. -/
theorem overheard_log (process : Process) (k : Nat) :
    Overheard connector process (.log k) (process.log connector k) := by
  have elsewhere : ∀ call : Judgement, ∀ index, speaker (.log k) = some index → index = call.connection :=
    fun _ index here => (by cases here)
  cases found : process.calls[k]? with
  | none =>
      simp only [log, found]
      exact .same rfl fun index here => (by cases here)
  | some call =>
      simp only [log, found]
      split
      · rename_i decision mine _ _ there
        cases decision with
        | allow => exact .set rfl there (.nothing rfl id) (elsewhere call)
        | block reason =>
            cases built : connector.buildRejection call.frame reason with
            | error _ =>
                simp only [built]
                exact .set rfl there (.nothing rfl fun ended => (by cases ended)) (elsewhere call)
            | ok rejection =>
                simp only [built]
                exact .set rfl there (.nothing rfl id) (elsewhere call)
      · exact .same rfl fun index here => (by cases here)

theorem overheard_stop (process : Process) (other : Nat) :
    Overheard connector process (.stop other) (process.stop other) := by
  simp only [stop]
  split
  · exact .same rfl fun index here => (by cases here)
  · rename_i mine there
    split
    · exact .same rfl fun index here => (by cases here)
    · exact .set rfl there (.nothing rfl fun ended => (by cases ended)) fun index here => (by cases here)

/-- The steps that may touch a connection. -/
def touching : ProcessLabel → Bool
  | .accept _ _ | .receive _ _ | .log _ | .respond _ _ | .stop _ => true
  | _ => false

theorem connections_of_not_touching (process : Process) {label : ProcessLabel} (apart : touching label = false) :
    (process.step connector parse label).connections = process.connections := by
  cases label with
  | accept _ _ | receive _ _ | log _ | respond _ _ | stop _ => cases apart
  | hangup =>
      simp only [step, hangup]
      split <;> rfl
  | load contents db =>
      simp only [step, load]
      split
      · split
        · rfl
        · split
          · rfl
          · simp only [send, build]
            split <;> rfl
      · rfl
  | exit =>
      simp only [step, exit]
      split <;> rfl
  | close index =>
      simp only [step, close]
      split
      · rfl
      · split <;> rfl
  | advance k now =>
      simp only [step, advance]
      repeat' split
      all_goals rfl
  | tick handle anchor =>
      simp only [step, tick]
      repeat' split
      all_goals rfl
  | syncFailed handle | merge handle _ _ =>
      simp only [step, finishSync]
      repeat' split
      all_goals rfl

theorem overheard_elsewhere (process : Process) (label : ProcessLabel) (apart : touching label = false) :
    Overheard connector process label (process.step connector parse label) := by
  have quiet : speaker label = none := by cases label <;> first | rfl | cases apart
  refine .same (process.connections_of_not_touching apart) fun index here => ?_
  rw [quiet] at here
  cases here

variable (connector parse) in
/-- A connection that is there after a step was there before, or has just been accepted. -/
theorem connection_step (process : Process) (label : ProcessLabel) {index : Nat} {connection : Connection}
    (found : (process.step connector parse label).connections[index]? = some connection) :
    (∃ earlier, process.connections[index]? = some earlier ∧
        Listens connector earlier (process.heardAt index label) connection) ∨
      ∃ entry ip, label = .accept entry ip ∧ process.Accepts entry index ∧ connection.bind = .start ip ∧
        connection.closed = false := by
  cases label with
  | accept entry ip =>
      simp only [step, accept] at found
      split at found
      · exact .inl ⟨connection, found, .nothing rfl id⟩
      · rename_i serving there
        split at found
        · rename_i accepts
          rcases getElem?_snoc_cases found with old | ⟨last, rfl⟩
          · exact .inl ⟨connection, old, .nothing rfl id⟩
          · exact .inr ⟨entry, ip, rfl, ⟨last.symm, serving, there, accepts⟩, rfl, rfl⟩
        · exact .inl ⟨connection, found, .nothing rfl id⟩
  | receive other frame => exact .inl (process.overheard_receive other frame index connection found)
  | respond other frame => exact .inl (process.overheard_respond other frame index connection found)
  | log k => exact .inl (process.overheard_log k index connection found)
  | stop other => exact .inl (process.overheard_stop other index connection found)
  | _ => exact .inl (process.overheard_elsewhere _ rfl index connection found)

/-- Only the frame of a client begins a call. -/
theorem call_of_change (change : Change connector parse process label after) {k : Nat} {call : Judgement}
    (found : after.calls[k]? = some call) :
    (∃ earlier, process.calls[k]? = some earlier ∧ earlier.Goes call) ∨
      ∃ index frame, label = .receive index frame := by
  cases change with
  | opened _ _ _ _ _ => exact .inr ⟨_, _, rfl⟩
  | returned there undecided _ | blocked there undecided _ _ _ =>
      rcases getElem?_set_cases found with ⟨rfl, rfl⟩ | ⟨-, old⟩
      · refine .inl ⟨_, there, ⟨rfl, rfl, rfl, rfl, rfl⟩, fun decision decided => ?_, id⟩
        rw [undecided] at decided
        cases decided
      · exact .inl ⟨call, old, call.goes⟩
  | passed there _ _ _ _ =>
      rcases getElem?_set_cases found with ⟨rfl, rfl⟩ | ⟨-, old⟩
      · exact .inl ⟨_, there, ⟨rfl, rfl, rfl, rfl, rfl⟩, fun _ => id, id⟩
      · exact .inl ⟨call, old, call.goes⟩
  | logged there _ _ _ _ _ | unanswerable there _ _ _ =>
      rcases getElem?_set_cases found with ⟨rfl, rfl⟩ | ⟨-, old⟩
      · exact .inl ⟨_, there, ⟨rfl, rfl, rfl, rfl, rfl⟩, fun _ => id, fun _ => rfl⟩
      · exact .inl ⟨call, old, call.goes⟩
  | _ => exact .inl ⟨call, found, call.goes⟩

variable (connector parse) in
/-- A call that is there after a step was there before, or has just begun, under the identity
    its connection has. -/
theorem call_step (process : Process) (label : ProcessLabel) {k : Nat} {call : Judgement}
    (found : (process.step connector parse label).calls[k]? = some call) :
    (∃ earlier, process.calls[k]? = some earlier ∧ earlier.Goes call) ∨
      ∃ connection, process.connections[call.connection]? = some connection ∧ connection.closed = false ∧
        process.heardAt call.connection label = [.request call.frame] ∧
        call.ctx.identity = connection.bind.identity := by
  rcases call_of_change (process.change label) found with before | ⟨index, frame, rfl⟩
  · exact .inl before
  · simp only [step, receive] at found
    split at found
    · exact .inl ⟨call, found, call.goes⟩
    · rename_i connection there
      split at found
      · exact .inl ⟨call, found, call.goes⟩
      · rename_i idle
        split at found
        · exact .inl ⟨call, found, call.goes⟩
        · rename_i claim _
          split at found
          · exact .inl ⟨call, found, call.goes⟩
          · exact .inl ⟨call, found, call.goes⟩
          · rcases getElem?_snoc_cases found with old | ⟨-, rfl⟩
            · exact .inl ⟨call, old, call.goes⟩
            · refine .inr ⟨connection, there, ?_, ?_, ?_⟩
              · exact Bool.eq_false_iff.mpr fun closed => idle (.inl closed)
              · change process.heardAt index (.receive index frame) = [.request frame]
                rw [heardAt, there]
                exact if_pos ⟨rfl, Connection.ready_iff.mpr idle⟩
              · cases claim <;> rfl

end Steps

section Runs

variable (connector) in
/-- The bind state of a connection is the one its own frames lead to. -/
structure Followed (ip : String) (events : List BindEvent) (connection : Connection) : Prop where
  state : (events.foldl (BindTrack.step connector) (.start ip)).state = connection.bind
  going : connection.closed = false → (events.foldl (BindTrack.step connector) (.start ip)).closed = false
  accountable : BindTrack.Accountable connector ip events connection.bind

theorem Followed.listens {ip : String} {events more : List BindEvent} {earlier later : Connection}
    (followed : Followed connector ip events earlier) (listens : Listens connector earlier more later) :
    Followed connector ip (events ++ more) later := by
  cases listens with
  | nothing bind going =>
      rw [List.append_nil]
      exact ⟨bind ▸ followed.state, fun onward => followed.going (going onward), bind ▸ followed.accountable⟩
  | @hears event _ going moves =>
      obtain ⟨state, onward⟩ := moves _ followed.state (followed.going going)
      have kept := BindTrack.Accountable.step (followed.state ▸ followed.accountable) (followed.going going) event
      rw [state] at kept
      refine ⟨?_, ?_, kept⟩
      · rw [List.foldl_append]
        exact state
      · rw [List.foldl_append]
        exact onward

variable (connector parse) in
/-- A connection was accepted from the address, as the one with this index. -/
def Origin (process : Process) (labels : List ProcessLabel) (index : Nat) (ip : String) : Prop :=
  ∃ before entry after, labels = before ++ .accept entry ip :: after ∧
    (before.foldl (step connector parse) process).Accepts entry index

theorem Origin.snoc {process : Process} {labels : List ProcessLabel} {index : Nat} {ip : String}
    (origin : Origin connector parse process labels index ip) (label : ProcessLabel) :
    Origin connector parse process (labels ++ [label]) index ip := by
  obtain ⟨before, entry, after, rfl, accepts⟩ := origin
  exact ⟨before, entry, after ++ [label], by rw [List.append_assoc, List.cons_append], accepts⟩

theorem heard_snoc (index : Nat) (process : Process) (labels : List ProcessLabel) (label : ProcessLabel) :
    heard connector parse index process (labels ++ [label]) =
      heard connector parse index process labels ++ (labels.foldl (step connector parse) process).heardAt index label :=
  emits_snoc process labels label

variable (connector parse) in
/-- A connection hears nothing before it is there. -/
theorem heard_of_none (configs : List (String × List ThresholdPolicy)) (labels : List ProcessLabel) {index : Nat}
    (missing : (labels.foldl (step connector parse) (start configs)).connections[index]? = none) :
    heard connector parse index (start configs) labels = [] := by
  induction labels using List.reverseRecOn with
  | nil => rfl
  | append_singleton labels label ih =>
      rw [List.foldl_append, List.foldl_cons, List.foldl_nil] at missing
      cases before : (labels.foldl (step connector parse) (start configs)).connections[index]? with
      | some connection =>
          have step := @change connector parse (labels.foldl (Process.step connector parse) (start configs)) label
          obtain ⟨later, found, -⟩ := step.extends.connections index connection before
          rw [missing] at found
          cases found
      | none =>
          rw [heard_snoc, ih before, heardAt_deaf (by rw [before]; exact Bool.false_ne_true)]
          rfl

variable (connector parse) in
/-- Every connection follows its own frames, from the address it was accepted from. -/
theorem connection_followed (configs : List (String × List ThresholdPolicy)) (labels : List ProcessLabel)
    {index : Nat} {connection : Connection}
    (found : (labels.foldl (step connector parse) (start configs)).connections[index]? = some connection) :
    ∃ ip, Origin connector parse (start configs) labels index ip ∧
      Followed connector ip (heard connector parse index (start configs) labels) connection := by
  induction labels using List.reverseRecOn generalizing connection with
  | nil =>
      rw [List.foldl_nil, (start_quiet configs).1] at found
      cases found
  | append_singleton labels label ih =>
      rw [List.foldl_append, List.foldl_cons, List.foldl_nil] at found
      rw [heard_snoc]
      rcases connection_step connector parse _ label found with
        ⟨earlier, there, listens⟩ | ⟨entry, ip, rfl, accepts, bind, going⟩
      · obtain ⟨ip, origin, followed⟩ := ih there
        exact ⟨ip, origin.snoc label, followed.listens listens⟩
      · refine ⟨ip, ⟨labels, entry, [], rfl, accepts⟩, ?_⟩
        have missing := List.getElem?_eq_none (Nat.le_of_eq accepts.1)
        rw [heard_of_none connector parse configs labels missing]
        exact ⟨bind.symm, fun _ => rfl, bind ▸ .start connector ip⟩

variable (connector parse) in
/-- In every run, a call is made in the name its own connection has at that moment. That
    depends on nothing but the address the connection was accepted from and the frames of
    the connection before the call's: it is the peer's, unless the connection claimed a name
    and was then told of success, under the claim's own message ID. -/
theorem calls_are_attributed (configs : List (String × List ThresholdPolicy)) (labels : List ProcessLabel) {k : Nat}
    {call : Judgement} (found : (labels.foldl (step connector parse) (start configs)).calls[k]? = some call) :
    ∃ ip events, Origin connector parse (start configs) labels call.connection ip ∧
      events ++ [.request call.frame] <+: heard connector parse call.connection (start configs) labels ∧
      call.ctx.identity = (events.foldl (BindTrack.step connector) (.start ip)).state.identity ∧
      (call.ctx.identity = Identity.fromPeerAddr ip ∨
        ∃ dn, call.ctx.identity = Identity.fromBindDn dn ∧ BindTrack.Vouched connector events dn) := by
  induction labels using List.reverseRecOn generalizing call with
  | nil =>
      rw [List.foldl_nil, (start_quiet configs).2.1] at found
      cases found
  | append_singleton labels label ih =>
      rw [List.foldl_append, List.foldl_cons, List.foldl_nil] at found
      rw [heard_snoc]
      rcases call_step connector parse _ label found with ⟨earlier, there, goes⟩ | ⟨connection, there, -, heard, same⟩
      · obtain ⟨ip, events, origin, inside, mine⟩ := ih there
        obtain ⟨connection, frame, -, ctx, -⟩ := goes.same
        rw [connection, frame, ctx]
        exact ⟨ip, events, origin.snoc label, inside.trans (List.prefix_append _ _), mine⟩
      · obtain ⟨ip, origin, followed⟩ := connection_followed connector parse configs labels there
        refine ⟨ip, _, origin.snoc label, by rw [heard], ?_, ?_⟩
        · rw [followed.state]
          exact same
        · rw [same]
          exact followed.accountable.bound

/-- A codec that knows a deletion next to the bind frames. -/
def bindingConnector : LdapConnector where
  ber :=
    { decode := fun frame =>
        (BindRun.sampleConnector.ber.decode frame).or (Relay.deleteConnector.ber.decode frame)
      encode := fun _ => none
      decodePasswdModify := fun _ => none }
  unicode := BindRun.sampleConnector.unicode
  dnHash := fun _ => 0

/-- Of two connections the first binds, and both delete: the second one while the bind is
    open, the first one after its success. -/
def attributions : List ProcessLabel :=
  [.accept 0 "10.0.0.1", .accept 0 "10.0.0.2", .receive 0 BindRun.simpleBind, .receive 1 Relay.deleteFrame,
    .respond 0 BindRun.bindSuccess, .receive 0 Relay.deleteFrame]

theorem both_deletes_are_attributed : ∃ first second,
    (attributions.foldl (step bindingConnector twoFiles) (start [("ldap.toml", [])])).calls = [first, second] ∧
      first.ctx.identity = Identity.fromPeerAddr "10.0.0.2" ∧ second.ctx.identity = Identity.fromBindDn "cn=v" ∧
      ∃ ip events, Origin bindingConnector twoFiles (start [("ldap.toml", [])]) attributions second.connection ip ∧
        events ++ [.request second.frame] <+:
          heard bindingConnector twoFiles second.connection (start [("ldap.toml", [])]) attributions ∧
        BindTrack.Vouched bindingConnector events "cn=v" := by
  have calls : (attributions.foldl (step bindingConnector twoFiles) (start [("ldap.toml", [])])).calls =
      [⟨1, Relay.deleteFrame, ⟨"ldap", .delete, "cn=a", 1⟩, ⟨Identity.fromPeerAddr "10.0.0.2"⟩, [], 0, none, false⟩,
        ⟨0, Relay.deleteFrame, ⟨"ldap", .delete, "cn=a", 1⟩, ⟨Identity.fromBindDn "cn=v"⟩, [], 0, none, false⟩] := rfl
  obtain ⟨ip, events, origin, inside, -, attributed⟩ :=
    calls_are_attributed bindingConnector twoFiles [("ldap.toml", [])] attributions (k := 1)
      (congrArg (fun calls : List Judgement => calls[1]?) calls)
  refine ⟨_, _, calls, rfl, rfl, ip, events, origin, inside, ?_⟩
  rcases attributed with peer | ⟨dn, same, vouched⟩
  · exact absurd peer (Identity.fromBindDn_ne_fromPeerAddr _ _)
  · rw [Identity.fromBindDn_injective same]
    exact vouched

end Runs

end Process

end AiProtect
