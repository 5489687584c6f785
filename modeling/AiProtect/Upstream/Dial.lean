import AiProtect.Proxy.Rejection
import AiProtect.Proxy.StartTls
import AiProtect.Upstream.Failover

/-! # Dialing an upstream server

One dial: the socket, StartTLS in the clear if that is asked for, and the handshake. The
answer to StartTLS is read off the socket without a buffer, so that what follows it is left
to the handshake. With TLS configured, this request is all that any server ever gets to see
in the clear, and no byte that came in the clear is taken for LDAP after the answer.
-/

namespace AiProtect

inductive DialError where
  | connect
  | nodelay
  | encode (message : String)
  | send
  | read (message : String)
  | closed
  | decode (message : String)
  | notExtended
  | rejected (code : ResultCode)
  | handshake
  deriving DecidableEq, Repr

/-- Where a step of a dial gets to; one that waits for the server may wait for ever. -/
inductive Dialing (α : Type) where
  | done (value : α)
  | failed (error : DialError)
  | pending

/-- A server, as far as a dial has to do with it: how the connect goes, how many bytes it
    takes, what it sends, whether it then stays silent instead of closing, and what the
    handshake makes of the bytes it is given. -/
structure DirectoryServer where
  connect : Dialing Unit
  takes : Nat
  replies : ByteStream
  silent : Bool
  handshake : ByteStream → Dialing ByteStream

/-- The end of a stream in the middle of a read or a write: an error, or no end at all. -/
def DirectoryServer.ending {α : Type} (server : DirectoryServer) (error : DialError) : Dialing α :=
  if server.silent = true then .pending else .failed error

theorem DirectoryServer.ending_ne_done {α : Type} (server : DirectoryServer) (error : DialError) (value : α) :
    server.ending error ≠ .done value := by
  unfold ending
  split <;> exact fun same => by cases same

inductive UpstreamStream where
  | plain (tcp : ByteStream)
  | tls (decrypted : ByteStream)

/-- What `dial` comes to, with the bytes it has sent in the clear and whether it has counted
    a failed handshake. -/
structure Dialed where
  result : Dialing UpstreamStream
  clear : Bytes
  handshakeFailure : Bool

/-- The part of the connector that has to do with its servers. -/
structure Dialer where
  connector : LdapConnector
  upstreamTls : Bool
  upstreamStarttls : Bool

def startTlsUpstreamMessageId : Nat := 1

namespace Dialer

def withStarttls (dialer : Dialer) (enabled : Bool) : Dialer := { dialer with upstreamStarttls := enabled }

/-- The message of `negotiate_starttls`. -/
def startTlsRequest : LdapMessage := ⟨startTlsUpstreamMessageId, .extendedReq ⟨asBytes startTlsOid, none⟩⟩

/-- The second half of `negotiate_starttls`: what is left of the stream after the answer. -/
def awaitStarttls (connector : LdapConnector) (server : DirectoryServer) : Dialing ByteStream :=
  match ByteStream.readFrame server.replies with
  | (.error message, _) => if message = "early eof" then server.ending (.read message) else .failed (.read message)
  | (.ok none, _) => server.ending .closed
  | (.ok (some frame), rest) =>
      match connector.decodeMessage "decoding upstream's StartTLS response" frame with
      | .error message => .failed (.decode message)
      | .ok response =>
          match response.protocolOp with
          | .extendedResp response =>
              if response.result.resultCode = .success then .done rest
              else .failed (.rejected response.result.resultCode)
          | _ => .failed .notExtended

/-- `negotiate_starttls`, with what it sends. -/
def negotiateStarttls (connector : LdapConnector) (server : DirectoryServer) : Dialing ByteStream × Bytes :=
  match connector.encodeMessage "encoding StartTLS request" startTlsRequest with
  | .error message => (.failed (.encode message), [])
  | .ok frame =>
      if frame.length ≤ server.takes then (awaitStarttls connector server, frame)
      else (server.ending .send, frame.take server.takes)

/-- The handshake, once the socket is ready for it. -/
def finish (server : DirectoryServer) (clear : Bytes) : Dialing ByteStream → Dialed
  | .failed error => ⟨.failed error, clear, false⟩
  | .pending => ⟨.pending, clear, false⟩
  | .done rest =>
      match server.handshake rest with
      | .done decrypted => ⟨.done (.tls decrypted), clear, false⟩
      | .failed error => ⟨.failed error, clear, true⟩
      | .pending => ⟨.pending, clear, false⟩

def dial (dialer : Dialer) (server : DirectoryServer) : Dialed :=
  match server.connect with
  | .failed error => ⟨.failed error, [], false⟩
  | .pending => ⟨.pending, [], false⟩
  | .done _ =>
      if dialer.upstreamTls = false then ⟨.done (.plain server.replies), [], false⟩
      else if dialer.upstreamStarttls = true then
        finish server (negotiateStarttls dialer.connector server).2 (negotiateStarttls dialer.connector server).1
      else finish server [] (.done server.replies)

/-- The dials of a connection to servers; `describe` is how an error reads. -/
def dials (dialer : Dialer) (servers : Nat → DirectoryServer) (describe : DialError → String)
    (ended : Nat → Int) : Dials where
  outcome := fun index =>
    match (dialer.dial (servers index)).result with
    | .done _ => .success
    | .failed error => .error (describe error)
    | .pending => .pending
  ended := ended

/-- What a server gets to see in the clear over the life of a connection that it was dialed
    for: what the dial sent, and what is then relayed to it if the stream is a plain one. -/
def exposed (dialer : Dialer) (server : DirectoryServer) (relayed : Bytes) : Bytes :=
  match (dialer.dial server).result with
  | .done (.plain _) => (dialer.dial server).clear ++ relayed
  | _ => (dialer.dial server).clear

variable {dialer : Dialer} {server : DirectoryServer}

/-- The answer that lets the handshake begin: the first frame the server sends is an extended
    response that reports success, whatever its message ID. -/
def Confirmed (connector : LdapConnector) (server : DirectoryServer) (after : Bytes) : Prop :=
  ∃ frame messageId response, readFrame server.replies.elements = .ok (some (frame, after)) ∧
    connector.ber.decode frame = some ⟨messageId, .extendedResp response⟩ ∧ response.result.resultCode = .success

theorem awaitStarttls_of_confirmed {connector : LdapConnector} {after : Bytes}
    (confirmed : Confirmed connector server after) :
    ∃ rest, awaitStarttls connector server = .done rest ∧ rest.elements = after := by
  obtain ⟨frame, messageId, response, first, decoded, success⟩ := confirmed
  obtain ⟨rest, read, left⟩ := StartTls.readFrame_first first
  refine ⟨rest, ?_, left⟩
  simp only [awaitStarttls, read, LdapConnector.decodeMessage, decoded, success, if_true]

theorem confirmed_of_awaitStarttls {connector : LdapConnector} {rest : ByteStream}
    (awaited : awaitStarttls connector server = .done rest) : Confirmed connector server rest.elements := by
  simp only [awaitStarttls] at awaited
  split at awaited
  · split at awaited
    · exact absurd awaited (server.ending_ne_done _ rest)
    · cases awaited
  · exact absurd awaited (server.ending_ne_done _ rest)
  · rename_i frame later read
    split at awaited
    · cases awaited
    · rename_i message decoded
      split at awaited
      · rename_i response operation
        split at awaited
        · rename_i success
          cases awaited
          refine ⟨frame, message.messageId, response, ByteStream.readFrame_of_some read, ?_, success⟩
          simp only [LdapConnector.decodeMessage] at decoded
          split at decoded
          · rename_i found
            cases decoded
            rw [found, ← operation]
          · cases decoded
        · cases awaited
      · cases awaited

/-- What the request for StartTLS looks like on the wire. -/
def StartTlsFrame (connector : LdapConnector) (frame : Bytes) : Prop :=
  connector.ber.encode startTlsRequest = some frame

theorem encodeMessage_ok {connector : LdapConnector} {context : String} {message : LdapMessage} {frame : Bytes} :
    connector.encodeMessage context message = .ok frame ↔ connector.ber.encode message = some frame := by
  cases encoded : connector.ber.encode message with
  | none => simp only [LdapConnector.encodeMessage, encoded, reduceCtorEq]
  | some bytes => simp only [LdapConnector.encodeMessage, encoded, Except.ok.injEq, Option.some.injEq]

/-- Nothing but the request, or the start of it, is sent before the handshake. -/
theorem clear_negotiateStarttls (connector : LdapConnector) (server : DirectoryServer) :
    (negotiateStarttls connector server).2 = [] ∨
      ∃ frame, StartTlsFrame connector frame ∧ (negotiateStarttls connector server).2 <+: frame := by
  cases encoded : connector.encodeMessage "encoding StartTLS request" startTlsRequest with
  | error message => exact .inl (by simp only [negotiateStarttls, encoded])
  | ok frame =>
      refine .inr ⟨frame, encodeMessage_ok.mp encoded, ?_⟩
      simp only [negotiateStarttls, encoded]
      split
      · exact List.prefix_refl frame
      · exact List.take_prefix _ frame

theorem clear_finish (server : DirectoryServer) (clear : Bytes) (ready : Dialing ByteStream) :
    (finish server clear ready).clear = clear := by
  cases ready with
  | failed _ | pending => rfl
  | done rest =>
      simp only [finish]
      cases server.handshake rest <;> rfl

theorem finish_eq_done {clear : Bytes} {ready : Dialing ByteStream} {stream : UpstreamStream} :
    (finish server clear ready).result = .done stream ↔
      ∃ rest decrypted, ready = .done rest ∧ server.handshake rest = .done decrypted ∧ stream = .tls decrypted := by
  cases ready with
  | failed _ | pending => simp only [finish, reduceCtorEq, false_and, exists_false]
  | done rest =>
      simp only [finish, Dialing.done.injEq, exists_and_left, exists_eq_left']
      cases shaken : server.handshake rest with
      | failed _ | pending => simp only [reduceCtorEq, false_and, exists_false]
      | done decrypted => simp only [Dialing.done.injEq, exists_eq_left', eq_comm]

theorem negotiateStarttls_done {connector : LdapConnector} {rest : ByteStream} :
    (negotiateStarttls connector server).1 = .done rest ↔
      ∃ frame, StartTlsFrame connector frame ∧ frame.length ≤ server.takes ∧
        awaitStarttls connector server = .done rest := by
  cases encoded : connector.encodeMessage "encoding StartTLS request" startTlsRequest with
  | error message =>
      simp only [negotiateStarttls, encoded, reduceCtorEq, false_iff, not_exists]
      rintro frame ⟨sent, -⟩
      rw [encodeMessage_ok.mpr sent] at encoded
      cases encoded
  | ok frame =>
      have only : ∀ other, StartTlsFrame connector other ↔ other = frame := by
        intro other
        rw [StartTlsFrame, encodeMessage_ok.mp encoded, Option.some.injEq, eq_comm]
      simp only [negotiateStarttls, encoded, only, exists_eq_left]
      split
      · rename_i taken
        simp only [taken, true_and]
      · rename_i short
        simp only [short, false_and, iff_false]
        exact server.ending_ne_done _ rest

/-- With TLS, a dial succeeds exactly if the server lets it connect and the handshake
    succeeds, on all bytes of the server or, with StartTLS, on those after its consent. -/
theorem dial_eq_done (tls : dialer.upstreamTls = true) {stream : UpstreamStream} :
    (dialer.dial server).result = .done stream ↔ ∃ rest decrypted, server.connect = .done () ∧
      server.handshake rest = .done decrypted ∧ stream = .tls decrypted ∧
      if dialer.upstreamStarttls = true then ∃ frame, StartTlsFrame dialer.connector frame ∧
        frame.length ≤ server.takes ∧ awaitStarttls dialer.connector server = .done rest
      else server.replies = rest := by
  cases connect : server.connect with
  | failed _ | pending => simp only [dial, connect, reduceCtorEq, false_and, exists_false]
  | done _ =>
      simp only [dial, connect, tls, Bool.true_eq_false, if_false, true_and]
      by_cases starttls : dialer.upstreamStarttls = true
      · simp only [starttls, if_true, finish_eq_done, negotiateStarttls_done]
        constructor
        · rintro ⟨rest, decrypted, ready, shaken, same⟩
          exact ⟨rest, decrypted, shaken, same, ready⟩
        · rintro ⟨rest, decrypted, shaken, same, ready⟩
          exact ⟨rest, decrypted, ready, shaken, same⟩
      · simp only [starttls, Bool.false_eq_true, if_false, finish_eq_done, Dialing.done.injEq]
        constructor
        · rintro ⟨rest, decrypted, ready, shaken, same⟩
          exact ⟨rest, decrypted, shaken, same, ready⟩
        · rintro ⟨rest, decrypted, shaken, same, ready⟩
          exact ⟨rest, decrypted, ready, shaken, same⟩

theorem clear_dial (dialer : Dialer) (server : DirectoryServer) :
    (dialer.dial server).clear = [] ∨ (dialer.upstreamStarttls = true ∧
      ∃ frame, StartTlsFrame dialer.connector frame ∧ (dialer.dial server).clear <+: frame) := by
  cases connect : server.connect with
  | failed _ | pending => exact .inl (by simp only [dial, connect])
  | done _ =>
      simp only [dial, connect]
      split
      · exact .inl rfl
      · split
        · rename_i starttls
          rw [clear_finish]
          exact (clear_negotiateStarttls dialer.connector server).imp_right fun sent => ⟨starttls, sent⟩
        · exact .inl (clear_finish server [] _)

theorem exposed_of_tls (tls : dialer.upstreamTls = true) (server : DirectoryServer) (relayed : Bytes) :
    dialer.exposed server relayed = (dialer.dial server).clear := by
  unfold exposed
  split
  · rename_i tcp plain
    obtain ⟨_, _, -, -, same, -⟩ := (dial_eq_done tls).mp plain
    cases same
  · rfl

/-- With TLS configured, whatever is relayed and however the targets are chosen, each server
    gets to see in the clear at most a request for StartTLS, and nothing if StartTLS is not
    asked for. A connection is made only to a server whose handshake succeeded on exactly
    the bytes after its consent to StartTLS, or on all of its bytes; and consent together
    with such a handshake is enough for StartTLS to succeed. -/
theorem upstream_tls_is_kept (dialer : Dialer) (tls : dialer.upstreamTls = true) (servers : Nat → DirectoryServer)
    (describe : DialError → String) (ended : Nat → Int) (state : PoolState) (clock : Nat → Int) (shuffle : Shuffle) :
    (∀ index relayed, dialer.exposed (servers index) relayed = [] ∨ (dialer.upstreamStarttls = true ∧
        ∃ frame, StartTlsFrame dialer.connector frame ∧ dialer.exposed (servers index) relayed <+: frame)) ∧
      (∀ index, (connectUpstream state clock shuffle (dialer.dials servers describe ended)).result =
          .ready (.ok index) →
        ∃ rest decrypted, (dialer.dial (servers index)).result = .done (.tls decrypted) ∧
          (servers index).handshake rest = .done decrypted ∧
          if dialer.upstreamStarttls = true then Confirmed dialer.connector (servers index) rest.elements
          else (servers index).replies = rest) ∧
      ∀ index frame after, dialer.upstreamStarttls = true → (servers index).connect = .done () →
        StartTlsFrame dialer.connector frame → frame.length ≤ (servers index).takes →
        Confirmed dialer.connector (servers index) after →
        (∀ rest, rest.elements = after → ∃ decrypted, (servers index).handshake rest = .done decrypted) →
        ∃ decrypted, (dialer.dial (servers index)).result = .done (.tls decrypted) := by
  refine ⟨?_, ?_, ?_⟩
  · intro index relayed
    rw [exposed_of_tls tls]
    exact dialer.clear_dial (servers index)
  · intro index connected
    obtain ⟨-, -, -, success, -⟩ := dialed_of_connected connected
    have reached : ∃ stream, (dialer.dial (servers index)).result = .done stream := by
      simp only [dials] at success
      split at success
      · rename_i stream reached
        exact ⟨stream, reached⟩
      · cases success
      · cases success
    obtain ⟨stream, reached⟩ := reached
    obtain ⟨rest, decrypted, -, shaken, rfl, ready⟩ := (dial_eq_done tls).mp reached
    refine ⟨rest, decrypted, reached, shaken, ?_⟩
    split at ready
    · rename_i starttls
      obtain ⟨_, -, -, awaited⟩ := ready
      rw [if_pos starttls]
      exact confirmed_of_awaitStarttls awaited
    · rename_i implicit
      rw [if_neg implicit]
      exact ready
  · intro index frame after starttls connect sent taken confirmed shakes
    obtain ⟨rest, awaited, left⟩ := awaitStarttls_of_confirmed confirmed
    obtain ⟨decrypted, shaken⟩ := shakes rest left
    refine ⟨decrypted, (dial_eq_done tls).mpr ⟨rest, decrypted, connect, shaken, rfl, ?_⟩⟩
    rw [if_pos starttls]
    exact ⟨frame, sent, taken, awaited⟩

/-- A codec that knows the request for StartTLS and its confirmation. -/
def startTlsDialer : Dialer where
  connector :=
    { Relay.startTlsConnector with
      ber :=
        { Relay.startTlsConnector.ber with
          decode := fun frame =>
            if frame = Relay.startTlsResponse then some ⟨1, .extendedResp ⟨⟨.success, "", ""⟩, none, none⟩⟩ else none
          encode := fun message => if message = startTlsRequest then some Relay.startTlsRequest else none } }
  upstreamTls := true
  upstreamStarttls := true

/-- A server that confirms, and at once sends an LDAP message in the clear. Its handshake
    takes the rest for what it decrypts to. -/
def eagerServer : DirectoryServer where
  connect := .done ()
  takes := 100
  replies := ⟨[Relay.startTlsResponse ++ Relay.deleteRejection], by decide⟩
  silent := true
  handshake := .done

theorem eager_server_tls_is_kept :
    (startTlsDialer.exposed eagerServer Relay.deleteFrame = Relay.startTlsRequest) ∧
      ∃ rest decrypted, (startTlsDialer.dial eagerServer).result = .done (.tls decrypted) ∧
        eagerServer.handshake rest = .done decrypted ∧
        Confirmed startTlsDialer.connector eagerServer rest.elements := by
  obtain ⟨-, connected, -⟩ := upstream_tls_is_kept startTlsDialer rfl (fun _ => eagerServer) (fun _ => "")
    (fun _ => 0) PoolState.twoTargets (fun _ => 0) PoolState.noShuffle
  have outcome : (startTlsDialer.dials (fun _ => eagerServer) (fun _ => "") fun _ => 0).outcome 0 = .success := by
    decide +kernel
  refine ⟨by decide +kernel, connected 0 ?_⟩
  obtain ⟨rest, candidates⟩ : ∃ rest, PoolState.twoTargets.pool.candidates (fun _ => 0) PoolState.noShuffle =
      ⟨0, .v4 ⟨[10, 0, 0, 1], rfl⟩ 389⟩ :: rest := ⟨_, rfl⟩
  simp only [connectUpstream, candidates, dialCandidates, outcome]

end Dialer

end AiProtect
