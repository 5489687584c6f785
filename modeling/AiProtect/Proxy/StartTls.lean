import AiProtect.Ldap.Framing
import AiProtect.Proxy.Relay

/-! # StartTLS and the first frame

With StartTLS on offer, the first frame of a plaintext connection is read off the socket
before relaying starts, piece by piece and without a buffer. A request for TLS leaves the
rest of the socket to the handshake; any other frame is handed on. The theorem of this
module says for which streams nothing is lost in the process, and that plaintext sent
after a request for TLS is never relayed.
-/

universe u

namespace AiProtect

/-- The connection of a client: the socket, or what comes out of a TLS session. -/
inductive ClientStream where
  | plain (tcp : ByteStream)
  | tls (decrypted : ByteStream)

def ClientStream.bytes : ClientStream → ByteStream
  | plain tcp => tcp
  | tls decrypted => decrypted

/-- The handshake takes the socket over as it stands, and fails or hands out the decrypted
    stream. -/
abbrev Acceptor := ByteStream → Option ByteStream

/-- Tokio's `BufReader`: it reads ahead, so the pieces are cut anew. -/
structure Buffering where
  read : ByteStream → ByteStream
  elements : ∀ stream, (read stream).elements = stream.elements

theorem frames_eq_nil {stream : Bytes} (none : ∀ frame rest, readFrame stream ≠ .ok (some (frame, rest))) :
    frames stream = [] := by
  rw [frames]
  split
  · rename_i frame rest found
    exact absurd found (none frame rest)
  · rfl

namespace LdapConnector

def IsStartTls (connector : LdapConnector) (frame : Bytes) : Prop :=
  ∃ messageId value, connector.ber.decode frame = some ⟨messageId, .extendedReq ⟨asBytes startTlsOid, value⟩⟩

variable {connector : LdapConnector} {frame : Bytes}

/-- A request for TLS is answered, or the answer cannot be encoded. -/
theorem IsStartTls.upgradeRequest_ne_none (startTls : connector.IsStartTls frame) :
    connector.upgradeRequest frame ≠ .ok none := by
  obtain ⟨messageId, value, decoded⟩ := startTls
  have answer : connector.upgradeRequest frame = (connector.encodeMessage "encoding StartTLS response"
      ⟨messageId, .extendedResp ⟨⟨.success, "", ""⟩, none, none⟩⟩).map some := by
    simp only [upgradeRequest, decodeMessage, decoded]
    exact if_neg fun different => different rfl
  rw [answer]
  cases connector.encodeMessage "encoding StartTLS response"
      ⟨messageId, .extendedResp ⟨⟨.success, "", ""⟩, none, none⟩⟩ with
  | error message => exact fun same => by cases same
  | ok response => exact fun same => by cases same

/-- Any other frame that decodes is handed back. -/
theorem upgradeRequest_eq_none {message : LdapMessage} (decoded : connector.ber.decode frame = some message)
    (other : ¬ connector.IsStartTls frame) : connector.upgradeRequest frame = .ok none := by
  obtain ⟨messageId, operation⟩ := message
  simp only [upgradeRequest, decodeMessage, decoded]
  cases operation with
  | extendedReq request =>
      have different : request.requestName ≠ asBytes startTlsOid := by
        intro same
        apply other
        refine ⟨messageId, request.requestValue, ?_⟩
        rw [decoded, ← same]
      exact if_pos different
  | _ => rfl

theorem upgradeRequest_error (undecodable : connector.ber.decode frame = none) :
    connector.upgradeRequest frame = .error "decoding LDAP message" := by
  simp only [upgradeRequest, decodeMessage, undecodable]
  rfl

end LdapConnector

namespace StartTls

variable (connector : LdapConnector) (buffering : Buffering)

/-- The client's stream to relay, and a first frame that has been read already. The answer
    to a request for TLS is written before the handshake. -/
def maybeUpgradeToTls (listenStarttls : Option Acceptor) (clientStream : ClientStream) :
    Except String (ClientStream × Option Bytes) :=
  match listenStarttls, clientStream with
  | some accept, .plain tcp =>
      match ByteStream.readFrame tcp with
      | (.error message, _) => .error message
      | (.ok none, rest) => .ok (.plain rest, none)
      | (.ok (some frame), rest) =>
          match connector.upgradeRequest frame with
          | .error message => .error message
          | .ok none => .ok (.plain rest, some frame)
          | .ok (some _) =>
              match accept rest with
              | none => .error "TLS handshake failed"
              | some decrypted => .ok (.tls decrypted, none)
  | _, clientStream => .ok (clientStream, none)

/-- The frames handed to `handle_client_frame` by the loop, after those handed over already.
    `goesOn` says whether the connection goes on after them: the upstream is connected, the
    last frame was handled without an error, and neither a timeout nor the other direction
    has ended the connection. -/
def relayClientRequests (goesOn : List Bytes → Bool) (handed : List Bytes) (clientRead : ByteStream) : List Bytes :=
  if goesOn handed = true then
    match _ : ByteStream.readFrame clientRead with
    | (.ok (some frame), rest) => relayClientRequests goesOn (handed ++ [frame]) rest
    | _ => handed
  else handed
termination_by clientRead.elements.length
decreasing_by exact length_readFrame (ByteStream.readFrame_of_some (by assumption))

/-- All frames that a connection hands to `handle_client_frame`. -/
def handleConnection (listenStarttls : Option Acceptor) (goesOn : List Bytes → Bool)
    (clientStream : ClientStream) : List Bytes :=
  match maybeUpgradeToTls connector listenStarttls clientStream with
  | .error _ => []
  | .ok (clientStream, none) => relayClientRequests goesOn [] (buffering.read clientStream.bytes)
  | .ok (clientStream, some frame) =>
      if goesOn [] = true then relayClientRequests goesOn [frame] (buffering.read clientStream.bytes) else []

/-- Hand frames over one by one for as long as the connection goes on. -/
def handOver (goesOn : List Bytes → Bool) (handed : List Bytes) : List Bytes → List Bytes
  | [] => handed
  | frame :: rest => if goesOn handed = true then handOver goesOn (handed ++ [frame]) rest else handed

/-- The connection of a client that starts in the clear, over all runs of the relay and all
    moments at which it may end. -/
structure FirstFrameKept (π : Type u) [Policy π] (accept : Acceptor) (tcp : ByteStream) : Prop where
  /-- After a request for TLS the acceptor gets exactly the bytes after it, and only the
      frames of its output are handed over. -/
  upgraded : ∀ frame after, readFrame tcp.elements = .ok (some (frame, after)) → connector.IsStartTls frame →
    ∃ rest : ByteStream, rest.elements = after ∧ ∀ goesOn,
      handleConnection connector buffering (some accept) goesOn (.plain tcp) = [] ∨
        ∃ decrypted, accept rest = some decrypted ∧
          handleConnection connector buffering (some accept) goesOn (.plain tcp) =
            handOver goesOn [] (frames decrypted.elements)
  /-- Whatever the relay then reads and writes upstream is made of frames of the decrypted
      stream. -/
  forwarded : ∀ frame after, readFrame tcp.elements = .ok (some (frame, after)) → connector.IsStartTls frame →
    ∀ (decrypt : Bytes → Option Bytes) (ip : String) (policies : List π) (upstream : Bytes)
      (labels : List (RelayLabel π)) (relay : Relay π),
      labels.foldl (Relay.step connector ⟨false, some decrypt⟩) (Relay.start ip policies tcp.elements upstream) =
          relay →
        relay.handled.map Handled.frame <+: frames ((decrypt after).getD []) ∧
          relay.toUpstream <+: ((relay.handled.filter Handled.forwards).map Handled.frame).flatten
  /-- Without one, the frames of the whole stream are handed over, as they are when StartTLS
      is not on offer. -/
  plain : (∀ frame after, readFrame tcp.elements = .ok (some (frame, after)) → ¬ connector.IsStartTls frame) →
    ∀ goesOn,
      handleConnection connector buffering (some accept) goesOn (.plain tcp) =
          handOver goesOn [] (frames tcp.elements) ∧
        handleConnection connector buffering (some accept) goesOn (.plain tcp) =
          handleConnection connector buffering none goesOn (.plain tcp)

/-- The first frame of the stream, if there is one, is an LDAP message. -/
def FirstDecodes (stream : Bytes) : Prop :=
  ∀ frame after, readFrame stream = .ok (some (frame, after)) → ∃ message, connector.ber.decode frame = some message

variable {connector} {buffering}

theorem relayClientRequests_eq (goesOn : List Bytes → Bool) (handed : List Bytes) (stream : ByteStream) :
    relayClientRequests goesOn handed stream = handOver goesOn handed (frames stream.elements) := by
  induction size : stream.elements.length using Nat.strong_induction_on generalizing stream handed with
  | _ size ih =>
      rw [relayClientRequests]
      split
      · rename_i going
        split
        · rename_i frame rest read
          have pure := ByteStream.readFrame_of_some read
          rw [frames_cons pure, handOver, if_pos going, ih _ (size ▸ length_readFrame pure) _ _ rfl]
        · rename_i none
          rw [frames_eq_nil, handOver]
          intro frame after pure
          obtain ⟨later, read, -⟩ := ByteStream.readFrame_isFrame_append (readFrame_isFrame pure) (readFrame_eq pure)
          exact none frame later read
      · rename_i ended
        cases frames stream.elements with
        | nil => rfl
        | cons frame rest => rw [handOver, if_neg ended]

/-- Without StartTLS, and after a failure or the end of the stream, nothing is peeked. -/
theorem handleConnection_none (goesOn : List Bytes → Bool) (tcp : ByteStream) :
    handleConnection connector buffering none goesOn (.plain tcp) =
      handOver goesOn [] (frames tcp.elements) := by
  simp only [handleConnection, maybeUpgradeToTls, ClientStream.bytes]
  rw [relayClientRequests_eq, buffering.elements]

/-- The peek of a first frame leaves exactly the bytes after it. -/
theorem readFrame_first {tcp : ByteStream} {frame after : Bytes}
    (first : readFrame tcp.elements = .ok (some (frame, after))) :
    ∃ rest, ByteStream.readFrame tcp = (.ok (some frame), rest) ∧ rest.elements = after :=
  ByteStream.readFrame_isFrame_append (readFrame_isFrame first) (readFrame_eq first)

theorem handed_of_startTls {accept : Acceptor} {tcp : ByteStream} {frame after : Bytes}
    (first : readFrame tcp.elements = .ok (some (frame, after))) (startTls : connector.IsStartTls frame) :
    ∃ rest : ByteStream, rest.elements = after ∧ ∀ goesOn,
      handleConnection connector buffering (some accept) goesOn (.plain tcp) = [] ∨
        ∃ decrypted, accept rest = some decrypted ∧
          handleConnection connector buffering (some accept) goesOn (.plain tcp) =
            handOver goesOn [] (frames decrypted.elements) := by
  obtain ⟨rest, read, left⟩ := readFrame_first first
  refine ⟨rest, left, fun goesOn => ?_⟩
  cases answer : connector.upgradeRequest frame with
  | error message =>
      apply Or.inl
      simp only [handleConnection, maybeUpgradeToTls, read, answer]
  | ok response =>
      cases response with
      | none => exact absurd answer startTls.upgradeRequest_ne_none
      | some response =>
          cases accepted : accept rest with
          | none =>
              apply Or.inl
              simp only [handleConnection, maybeUpgradeToTls, read, answer, accepted]
          | some decrypted =>
              refine .inr ⟨decrypted, rfl, ?_⟩
              simp only [handleConnection, maybeUpgradeToTls, read, answer, accepted, ClientStream.bytes]
              rw [relayClientRequests_eq, buffering.elements]

/-- A peeked frame that decodes and asks for no TLS takes the place it had in the stream. -/
theorem handed_of_plain {accept : Acceptor} {tcp : ByteStream} (decodes : FirstDecodes connector tcp.elements)
    (other : ∀ frame after, readFrame tcp.elements = .ok (some (frame, after)) → ¬ connector.IsStartTls frame)
    (goesOn : List Bytes → Bool) :
    handleConnection connector buffering (some accept) goesOn (.plain tcp) =
      handOver goesOn [] (frames tcp.elements) := by
  cases first : readFrame tcp.elements with
  | error message =>
      obtain ⟨rest, read⟩ : ∃ rest, ByteStream.readFrame tcp = (.error message, rest) := by
        refine ⟨(ByteStream.readFrame tcp).2, Prod.ext ?_ rfl⟩
        rw [(ByteStream.readFrame_follows tcp).result, first]
        rfl
      rw [frames_eq_nil (fun frame rest some => by rw [first] at some; cases some), handOver]
      simp only [handleConnection, maybeUpgradeToTls, read]
  | ok found =>
      cases found with
      | none =>
          have empty := readFrame_none first
          obtain ⟨rest, read, left⟩ := ByteStream.readFrame_nil empty
          simp only [handleConnection, maybeUpgradeToTls, read, ClientStream.bytes]
          rw [relayClientRequests_eq, buffering.elements, left, empty]
      | some pair =>
          obtain ⟨frame, after⟩ := pair
          obtain ⟨rest, read, left⟩ := readFrame_first first
          obtain ⟨message, decoded⟩ := decodes frame after first
          have passed := LdapConnector.upgradeRequest_eq_none decoded (other frame after first)
          simp only [handleConnection, maybeUpgradeToTls, read, passed, ClientStream.bytes]
          rw [frames_cons first, handOver, relayClientRequests_eq, buffering.elements, left]
          rfl

section Runs

variable {π : Type u} [Policy π] {listener : Listener} {source upstream frame after : Bytes} {relay : Relay π}
  {message : String} {accept : Bytes → Option Bytes}

/-- A request for TLS whose answer cannot be encoded ends the connection before relaying. -/
theorem accepting_step (sound : relay.Sound connector listener source upstream)
    (offered : listener.upgrade = some accept) (first : readFrame source = .ok (some (frame, after)))
    (failed : connector.upgradeRequest frame = .error message) (accepting : relay.stage = .accepting)
    (label : RelayLabel π) : (relay.step connector listener label).stage = .accepting := by
  have opened := sound.opened
  simp only [Relay.Opened, accepting] at opened
  obtain ⟨unread, -, nothing, quiet, -⟩ := opened
  have idle : relay.current = none := by
    rw [Relay.handled, List.append_eq_nil_iff] at nothing
    exact Option.toList_eq_nil_iff.mp nothing.2
  unfold Relay.step
  split
  · exact accepting
  · cases label with
    | peek => simp only [Relay.peek, accepting, offered, unread, first, failed]
    | greet count => simp only [Relay.greet, accepting]
    | request clock => simp only [Relay.request, accepting]
    | forward count => simp only [Relay.forward, idle, accepting]
    | reject count => simp only [Relay.reject, quiet, SharedWriter.start, accepting]
    | response => simp only [Relay.response, accepting]
    | respond | lock | elsewhere | stop => exact accepting

theorem accepting_run (offered : listener.upgrade = some accept)
    (first : readFrame source = .ok (some (frame, after)))
    (failed : connector.upgradeRequest frame = .error message) (labels : List (RelayLabel π))
    (sound : relay.Sound connector listener source upstream) (accepting : relay.stage = .accepting) :
    (labels.foldl (Relay.step connector listener) relay).stage = .accepting := by
  induction labels generalizing relay with
  | nil => exact accepting
  | cons label labels ih =>
      exact ih (sound.step label) (accepting_step sound offered first failed accepting label)

/-- In every run after a request for TLS, what is handled comes out of the TLS session. -/
theorem handled_of_startTls (ip : String) (policies : List π) (decrypt : Bytes → Option Bytes)
    (first : readFrame source = .ok (some (frame, after))) (startTls : connector.IsStartTls frame)
    (labels : List (RelayLabel π)) (sound : relay.Sound connector ⟨false, some decrypt⟩ source upstream)
    (reached : labels.foldl (Relay.step connector ⟨false, some decrypt⟩)
      (Relay.start ip policies source upstream) = relay) :
    relay.handled.map Handled.frame <+: frames ((decrypt after).getD []) := by
  have offered : Listener.upgrade ⟨false, some decrypt⟩ = some decrypt := rfl
  cases answer : connector.upgradeRequest frame with
  | error message =>
      have accepting : relay.stage = .accepting := by
        rw [← reached]
        exact accepting_run offered first answer labels (Relay.Sound.start ip policies) rfl
      have opened := sound.opened
      simp only [Relay.Opened, accepting] at opened
      rw [opened.2.2.1]
      exact List.nil_prefix
  | ok response =>
      cases response with
      | none => exact absurd answer startTls.upgradeRequest_ne_none
      | some response =>
          have session : Relay.session connector ⟨false, some decrypt⟩ source =
              ⟨response, (decrypt after).getD []⟩ := by
            simp only [Relay.session, offered, first, answer]
          have requests := sound.requests_prefix
          rwa [session] at requests

end Runs

/-- A first frame that cannot be decoded is lost at the peek. -/
theorem handed_of_undecodable {accept : Acceptor} {tcp : ByteStream} {frame after : Bytes}
    (first : readFrame tcp.elements = .ok (some (frame, after))) (undecodable : connector.ber.decode frame = none)
    (goesOn : List Bytes → Bool) :
    handleConnection connector buffering (some accept) goesOn (.plain tcp) = [] := by
  obtain ⟨rest, read, -⟩ := readFrame_first first
  simp only [handleConnection, maybeUpgradeToTls, read, LdapConnector.upgradeRequest_error undecodable]

theorem not_kept_of_undecodable {π : Type u} [Policy π] {accept : Acceptor} {tcp : ByteStream} {frame after : Bytes}
    (first : readFrame tcp.elements = .ok (some (frame, after)))
    (undecodable : connector.ber.decode frame = none) : ¬ FirstFrameKept connector buffering π accept tcp := by
  intro kept
  have other : ∀ frame after, readFrame tcp.elements = .ok (some (frame, after)) →
      ¬ connector.IsStartTls frame := by
    intro frame' after' first' startTls
    rw [first] at first'
    cases first'
    obtain ⟨messageId, value, decoded⟩ := startTls
    rw [undecodable] at decoded
    cases decoded
  -- The connection goes on until the first frame is handed over.
  obtain ⟨whole, -⟩ := kept.plain other fun handed => handed.isEmpty
  have handed : handOver (fun handed => handed.isEmpty) [] (frames tcp.elements) = [frame] := by
    rw [frames_cons first, handOver, List.isEmpty_nil, if_pos rfl]
    cases frames after with
    | nil => rfl
    | cons next rest => rfl
  rw [handed_of_undecodable first undecodable, handed] at whole
  cases whole

/-- The first frame of a plaintext connection is treated as it should be if and only if it
    is an LDAP message at all, or there is none. A frame that cannot be decoded ends the
    connection at the peek instead of being handed on. -/
theorem first_frame_kept_iff (connector : LdapConnector) (buffering : Buffering) (π : Type u) [Policy π]
    (accept : Acceptor) (tcp : ByteStream) :
    FirstFrameKept connector buffering π accept tcp ↔ FirstDecodes connector tcp.elements := by
  constructor
  · intro kept frame after first
    cases undecodable : connector.ber.decode frame with
    | some message => exact ⟨message, rfl⟩
    | none => exact absurd kept (not_kept_of_undecodable first undecodable)
  · intro decodes
    refine ⟨fun frame after => handed_of_startTls, ?_, ?_⟩
    · intro frame after first startTls decrypt ip policies upstream labels relay reached
      have sound : relay.Sound connector ⟨false, some decrypt⟩ tcp.elements upstream :=
        reached ▸ (Relay.Sound.start ip policies).run labels
      exact ⟨handled_of_startTls ip policies decrypt first startTls labels sound reached, sound.transparent.forwarded⟩
    · intro other goesOn
      have whole : handleConnection connector buffering (some accept) goesOn (.plain tcp) =
          handOver goesOn [] (frames tcp.elements) := handed_of_plain decodes other goesOn
      exact ⟨whole, whole.trans (handleConnection_none goesOn tcp).symm⟩

/-- Pieces that are no longer than the buffer are read as they come. -/
def shortReads : Buffering := ⟨fun stream => stream, fun _ => rfl⟩

/-- A sequence with a message ID and no operation: a frame, but no LDAP message. -/
def strayStream : ByteStream := ⟨[[0x30, 0x03, 0x02, 0x01, 0x01]], by decide⟩

/-- The frame is handed over if StartTLS is not on offer, and lost if it is. -/
theorem stray_first_frame_lost :
    handleConnection Relay.startTlsConnector shortReads (some fun _ => none) (fun _ => true) (.plain strayStream) = [] ∧
      handleConnection Relay.startTlsConnector shortReads none (fun _ => true) (.plain strayStream) =
        [[0x30, 0x03, 0x02, 0x01, 0x01]] ∧
      ¬ FirstFrameKept Relay.startTlsConnector shortReads ThresholdPolicy (fun _ => none) strayStream := by
  have first : readFrame strayStream.elements = .ok (some ([0x30, 0x03, 0x02, 0x01, 0x01], [])) := by decide +kernel
  have undecodable : Relay.startTlsConnector.ber.decode [0x30, 0x03, 0x02, 0x01, 0x01] = none := by decide +kernel
  refine ⟨handed_of_undecodable first undecodable _, ?_, not_kept_of_undecodable first undecodable⟩
  rw [handleConnection_none, frames_cons first, frames_nil]
  rfl

/-- A request for TLS with another request right behind it, in the clear. -/
def pipelinedStream : ByteStream :=
  ⟨[Relay.startTlsRequest ++ [0x30, 0x0c, 0x02, 0x01, 0x02, 0x4a, 0x07, 0x63, 0x6e, 0x3d, 0x61, 0x6c, 0x69, 0x63]], by
    simp⟩

theorem first_frame_kept_pipelined :
    FirstFrameKept Relay.startTlsConnector shortReads ThresholdPolicy (fun _ => none) pipelinedStream := by
  apply (first_frame_kept_iff Relay.startTlsConnector shortReads ThresholdPolicy (fun _ => none) pipelinedStream).mpr
  intro frame after first
  have found : readFrame pipelinedStream.elements = .ok (some (Relay.startTlsRequest,
      [0x30, 0x0c, 0x02, 0x01, 0x02, 0x4a, 0x07, 0x63, 0x6e, 0x3d, 0x61, 0x6c, 0x69, 0x63])) := by decide +kernel
  rw [found] at first
  cases first
  exact ⟨_, if_pos rfl⟩

end StartTls

end AiProtect
