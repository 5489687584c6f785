import Mathlib.Data.List.Basic

/-! # LDAP messages

The parts of an LDAP message that the connector reads or writes. Operations it only
passes through are `other`, with the tag that tells them apart.
-/

namespace AiProtect

/-- A byte string: a frame, or an octet string inside one. -/
abbrev Bytes := List UInt8

inductive ResultCode where
  | success
  | unwillingToPerform
  | other (code : Nat)
  deriving DecidableEq, Repr

structure LdapResult where
  resultCode : ResultCode
  matchedDn : String
  diagnosticMessage : String
  deriving DecidableEq, Repr

inductive AuthenticationChoice where
  | simple (password : Bytes)
  | sasl (mechanism : String) (credentials : Option Bytes)
  deriving DecidableEq, Repr

structure BindRequest where
  name : String
  authentication : AuthenticationChoice
  deriving DecidableEq, Repr

inductive ChangeOperation where
  | add
  | delete
  | replace
  deriving DecidableEq, Repr

/-- An attribute description with its values, in the order in which the decoder's set
    hands them out. -/
structure PartialAttribute where
  type : String
  vals : List Bytes
  deriving DecidableEq, Repr

structure ModifyRequestChanges where
  operation : ChangeOperation
  modification : PartialAttribute
  deriving DecidableEq, Repr

structure ModifyRequest where
  object : String
  changes : List ModifyRequestChanges
  deriving DecidableEq, Repr

structure ExtendedRequest where
  requestName : Bytes
  requestValue : Option Bytes
  deriving DecidableEq, Repr

structure ExtendedResponse where
  result : LdapResult
  responseName : Option Bytes
  responseValue : Option Bytes
  deriving DecidableEq, Repr

inductive ProtocolOp where
  | bindRequest (bind : BindRequest)
  | bindResponse (result : LdapResult)
  | modifyRequest (modify : ModifyRequest)
  | modifyResponse (result : LdapResult)
  | addRequest (entry : String)
  | addResponse (result : LdapResult)
  | delRequest (entry : String)
  | delResponse (result : LdapResult)
  | modDnRequest (entry : String)
  | modDnResponse (result : LdapResult)
  | extendedReq (request : ExtendedRequest)
  | extendedResp (response : ExtendedResponse)
  | other (tag : Nat)
  deriving DecidableEq, Repr

structure LdapMessage where
  messageId : Nat
  protocolOp : ProtocolOp
  deriving DecidableEq, Repr

/-- The value of a Password Modify request; only the identity is ever read. -/
structure PasswdModifyRequestValue where
  userIdentity : Option Bytes
  deriving DecidableEq, Repr

/-- The BER codec of the `rasn` crate, as far as it is used here. -/
structure Ber where
  decode : Bytes → Option LdapMessage
  encode : LdapMessage → Option Bytes
  decodePasswdModify : Bytes → Option PasswdModifyRequestValue

end AiProtect
