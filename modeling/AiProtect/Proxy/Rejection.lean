import AiProtect.Proxy.Relay

/-! # Rejections of blocked requests

Two matches over the operations of the protocol have to agree: the one that decides what
the policies see, and the one that builds the reply to a request they block. This module
shows that they do, so that a block is answered and never ends the connection.
-/

universe u

namespace AiProtect

/-- Encoding the message succeeds, and decoding what comes out gives it back. -/
def Ber.Inverts (ber : Ber) (message : LdapMessage) : Prop :=
  ∃ frame, ber.encode message = some frame ∧ ber.decode frame = some message

/-- The response operation that belongs to a request, with its result. -/
inductive Answers (result : LdapResult) : ProtocolOp → ProtocolOp → Prop where
  | modify (modify : ModifyRequest) : Answers result (.modifyRequest modify) (.modifyResponse result)
  | del (entry : String) : Answers result (.delRequest entry) (.delResponse result)
  | add (entry : String) : Answers result (.addRequest entry) (.addResponse result)
  | modDn (entry : String) : Answers result (.modDnRequest entry) (.modDnResponse result)
  | extended (request : ExtendedRequest) :
      Answers result (.extendedReq request) (.extendedResp ⟨result, none, none⟩)

namespace LdapConnector

def refusal (reason : String) : LdapResult := ⟨.unwillingToPerform, "", reason⟩

variable {connector : LdapConnector} {frame : Bytes} {action : Action}

/-- A frame with an action holds a request, of one of the five operations that have one. -/
theorem request_of_decode (decoded : connector.decode frame = .ok (some action)) :
    ∃ request, connector.ber.decode frame = some request ∧
      ∀ result, ∃ response, rejectionOp result request.protocolOp = some response ∧
        Answers result request.protocolOp response := by
  cases found : connector.ber.decode frame with
  | none =>
      simp only [decode, decodeMessage, found] at decoded
      cases decoded
  | some request =>
      refine ⟨request, rfl, fun result => ?_⟩
      obtain ⟨messageId, operation⟩ := request
      cases operation with
      | modifyRequest modify => exact ⟨_, rfl, .modify modify⟩
      | delRequest entry => exact ⟨_, rfl, .del entry⟩
      | addRequest entry => exact ⟨_, rfl, .add entry⟩
      | modDnRequest entry => exact ⟨_, rfl, .modDn entry⟩
      | extendedReq request => exact ⟨_, rfl, .extended request⟩
      | bindRequest | bindResponse | modifyResponse | addResponse | delResponse | modDnResponse | extendedResp |
          other =>
          simp only [decode, decodeMessage, found] at decoded
          cases decoded

theorem buildRejection_eq {request : LdapMessage} {response : ProtocolOp} {reason : String} {rejection : Bytes}
    (found : connector.ber.decode frame = some request)
    (belongs : rejectionOp (refusal reason) request.protocolOp = some response)
    (encoded : connector.ber.encode ⟨request.messageId, response⟩ = some rejection) :
    connector.buildRejection frame reason = .ok rejection := by
  unfold refusal at belongs
  have read : connector.decodeMessage "decoding LDAP message for rejection" frame = .ok request := by
    simp only [decodeMessage, found]
  have written : connector.encodeMessage "encoding rejection response" ⟨request.messageId, response⟩ =
      .ok rejection := by
    simp only [encodeMessage, encoded]
  rw [buildRejection, read]
  dsimp only [bind, Except.bind]
  rw [belongs]
  exact written

theorem bindRequest_of_decode (decoded : connector.decode frame = .ok (some action)) :
    ∃ claim, connector.bindRequest frame = .ok claim := by
  obtain ⟨request, found, -⟩ := request_of_decode decoded
  simp only [bindRequest, decodeMessage, found]
  exact ⟨_, rfl⟩

end LdapConnector

namespace Relay

open LdapConnector (refusal rejectionOp request_of_decode bindRequest_of_decode buildRejection_eq)

variable {π : Type u} [Policy π] {connector : LdapConnector} {frame : Bytes} {action : Action}

/-- A blocked frame is answered, and the connection goes on. -/
theorem handleClientFrame_blocked (decoded : connector.decode frame = .ok (some action)) {reason : String}
    {rejection : Bytes} (built : connector.buildRejection frame reason = .ok rejection) (relay : Relay π)
    (clock : Nat → Int) {handled : Handled π}
    (current : (handleClientFrame connector relay frame clock).current = some handled)
    (blocked : handled.blockedFor = some reason) :
    (handleClientFrame connector relay frame clock).ended = relay.ended ∧
      (handleClientFrame connector relay frame clock).writer = relay.writer.submit .right rejection := by
  obtain ⟨claim, claimed⟩ := bindRequest_of_decode decoded
  simp only [handleClientFrame, claimed, decoded] at current ⊢
  split at current
  · rename_i allowed
    obtain rfl := Option.some.inj current
    simp only [Handled.blockedFor, PolicyCall.decision, allowed, reduceCtorEq] at blocked
  · rename_i told decision
    have same : told = reason := by
      cases answer : connector.buildRejection frame told with
      | error message =>
          rw [answer] at current
          obtain rfl := Option.some.inj current
          simpa only [Handled.blockedFor, PolicyCall.decision, decision, Option.some.injEq] using blocked
      | ok rejection =>
          rw [answer] at current
          obtain rfl := Option.some.inj current
          simpa only [Handled.blockedFor, PolicyCall.decision, decision, Option.some.injEq] using blocked
    subst same
    rw [built]
    exact ⟨rfl, rfl⟩

/-- Whatever can be blocked can be rejected: for every frame with an action and every
    reason, the rejection can be built and decodes to the response that belongs to the
    request. A block is then answered with it and does not end the connection. -/
theorem blocked_request_answered (connector : LdapConnector) {frame : Bytes} {action : Action}
    (decoded : connector.decode frame = .ok (some action)) (reason : String)
    (inverts : ∀ request response, connector.ber.decode frame = some request →
      rejectionOp (refusal reason) request.protocolOp = some response →
        connector.ber.Inverts ⟨request.messageId, response⟩) :
    ∃ request rejection response, connector.ber.decode frame = some request ∧
      connector.buildRejection frame reason = .ok rejection ∧
      connector.ber.decode rejection = some ⟨request.messageId, response⟩ ∧
      Answers ⟨.unwillingToPerform, "", reason⟩ request.protocolOp response ∧
      ∀ (π : Type u) [Policy π] (relay : Relay π) (clock : Nat → Int) (handled : Handled π),
        (handleClientFrame connector relay frame clock).current = some handled →
          handled.blockedFor = some reason →
            (handleClientFrame connector relay frame clock).ended = relay.ended ∧
              (handleClientFrame connector relay frame clock).writer = relay.writer.submit .right rejection := by
  obtain ⟨request, found, belonging⟩ := request_of_decode decoded
  obtain ⟨response, belongs, answers⟩ := belonging (refusal reason)
  obtain ⟨rejection, encoded, readBack⟩ := inverts request response found belongs
  have built := buildRejection_eq found belongs encoded
  refine ⟨request, rejection, response, found, built, readBack, answers, ?_⟩
  intro π policy relay clock handled current blocked
  exact handleClientFrame_blocked decoded built relay clock current blocked

/-- A delete request for `cn=a` with message ID 5. -/
def deleteFrame : Bytes := [0x30, 0x09, 0x02, 0x01, 0x05, 0x4a, 0x04, 0x63, 0x6e, 0x3d, 0x61]

/-- Its rejection for the reason `no`. -/
def deleteRejection : Bytes :=
  [0x30, 0x0e, 0x02, 0x01, 0x05, 0x6b, 0x09, 0x0a, 0x01, 0x35, 0x04, 0x00, 0x04, 0x02, 0x6e, 0x6f]

/-- A codec that knows the request and the rejection. -/
def deleteConnector : LdapConnector where
  ber :=
    { decode := fun frame =>
        if frame = deleteFrame then some ⟨5, .delRequest "cn=a"⟩
        else if frame = deleteRejection then some ⟨5, .delResponse (refusal "no")⟩
        else none
      encode := fun message => if message = ⟨5, .delResponse (refusal "no")⟩ then some deleteRejection else none
      decodePasswdModify := fun _ => none }
  unicode := ⟨fun char => [char], fun _ => false, fun _ => false⟩
  dnHash := fun _ => 0

theorem blocked_delete_answered :
    ∃ rejection response, deleteConnector.buildRejection deleteFrame "no" = .ok rejection ∧
      deleteConnector.ber.decode rejection = some ⟨5, response⟩ ∧
      Answers ⟨.unwillingToPerform, "", "no"⟩ (.delRequest "cn=a") response := by
  have found : deleteConnector.ber.decode deleteFrame = some ⟨5, .delRequest "cn=a"⟩ := by decide +kernel
  have decoded : deleteConnector.decode deleteFrame =
      .ok (some (LdapConnector.ldapAction .delete "cn=a")) := by decide +kernel
  obtain ⟨request, rejection, response, known, built, readBack, answers, -⟩ :=
    blocked_request_answered.{0} deleteConnector decoded "no" (by
      intro request response known belongs
      rw [found] at known
      cases known
      cases belongs
      exact ⟨deleteRejection, by decide +kernel, by decide +kernel⟩)
  rw [found] at known
  cases known
  exact ⟨rejection, response, built, readBack, answers⟩

end Relay

end AiProtect
