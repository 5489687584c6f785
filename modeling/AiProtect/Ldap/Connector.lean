import AiProtect.Core.Action
import AiProtect.Core.Text
import AiProtect.Ldap.Message

/-! # The LDAP connector

What the connector makes of one frame: the action a policy is asked about, the bind
it claims or answers, and the responses the proxy writes itself. Errors carry the
context the source attaches to them; the text of a decoder's own error is left out.
-/

namespace AiProtect

/-- The parts the connector takes from elsewhere: the codec, the Unicode tables, and the
    hash of the process. -/
structure LdapConnector where
  ber : Ber
  unicode : Unicode
  dnHash : String → UInt64

/-- Lock attributes with their numeric OIDs. -/
def lockAttributes : List (String × String) :=
  [("pwdaccountlockedtime", "1.3.6.1.4.1.42.2.27.8.1.17"), ("useraccountcontrol", "1.2.840.113556.1.4.8"),
    ("nsaccountlock", "2.16.840.1.113730.3.1.220"), ("shadowexpire", "1.3.6.1.1.1.1.10")]

def uacAccountDisable : Nat := 0x0002

def maxDnLen : Nat := 256

def startTlsOid : String := "1.3.6.1.4.1.1466.20037"

def passwordModifyOid : String := "1.3.6.1.4.1.4203.1.11.1"

def asBytes (text : String) : Bytes := text.toUTF8.toList

namespace LdapConnector

variable (connector : LdapConnector)

/-- An attribute description without its options, lowercased. -/
def attributeBase (attrType : String) : String := connector.unicode.toLowercase (splitFirst ';' attrType)

def isLockAttribute (attrType : String) : Bool :=
  lockAttributes.any fun names =>
    decide (connector.attributeBase attrType = names.1) || decide (connector.attributeBase attrType = names.2)

def classifyUac (text : String) : Option OperationKind := do
  let flags ← parseU32 text
  return if flags &&& uacAccountDisable ≠ 0 then .accountLock else .accountUnlock

def classifyNsAccountLock (text : String) : Option OperationKind :=
  if connector.unicode.toLowercase text = "true" then some .accountLock
  else if connector.unicode.toLowercase text = "false" then some .accountUnlock
  else none

/-- Whether a write to a lock attribute locks or unlocks, where the value tells. -/
def classifyLockWrite (attrType : String) (values : List Bytes) : Option OperationKind := do
  let value ← values.head?
  let text ← (fromUtf8 value).map trim
  let base := connector.attributeBase attrType
  if base = "useraccountcontrol" ∨ base = "1.2.840.113556.1.4.8" then classifyUac text
  else if base = "nsaccountlock" ∨ base = "2.16.840.1.113730.3.1.220" then connector.classifyNsAccountLock text
  else none

/-- A name of at most `maxDnLen` bytes, or a marker with the length and the hash. -/
def capDn (dn : String) : String :=
  if dn.utf8ByteSize ≤ maxDnLen then dn
  else s!"(oversized DN, {dn.utf8ByteSize} bytes, hash {hex16 (connector.dnHash dn)})"

def normalizeBindDn (dn : String) : String := connector.unicode.toLowercase dn

def decodeMessage (context : String) (frame : Bytes) : Except String LdapMessage :=
  match connector.ber.decode frame with
  | some message => .ok message
  | none => .error context

def findChange (operations : List ChangeOperation) (modify : ModifyRequest) : Option ModifyRequestChanges :=
  modify.changes.find? fun change =>
    operations.contains change.operation && connector.isLockAttribute change.modification.type

/-- Whether a modify request locks or unlocks an account, if it touches a lock attribute. -/
def modifyOperation (modify : ModifyRequest) : Option OperationKind :=
  match connector.findChange [.add, .replace] modify with
  | some change =>
      some ((connector.classifyLockWrite change.modification.type change.modification.vals).getD .accountLock)
  | none => (connector.findChange [.delete] modify).map fun _ => .accountUnlock

def ldapAction (operation : OperationKind) (target : String) : Action := ⟨"ldap", operation, target, 1⟩

/-- The account a Password Modify request is about. -/
def passwordTarget : Option Bytes → Except String String
  | none => .ok "(bound identity)"
  | some value =>
      match connector.ber.decodePasswdModify value with
      | none => .error "decoding RFC 3062 PasswdModifyRequestValue"
      | some parsed => .ok (parsed.userIdentity.elim "(bound identity)" fun identity =>
          connector.capDn (fromUtf8Lossy identity))

/-- The action a frame asks for, if policies have a say in it. -/
def decode (frame : Bytes) : Except String (Option Action) := do
  let message ← connector.decodeMessage "decoding LDAP message" frame
  match message.protocolOp with
  | .modifyRequest modify =>
      return (connector.modifyOperation modify).map fun operation =>
        ldapAction operation (connector.capDn modify.object)
  | .delRequest entry => return some (ldapAction .delete (connector.capDn entry))
  | .addRequest entry => return some (ldapAction .create (connector.capDn entry))
  | .modDnRequest entry => return some (ldapAction .rename (connector.capDn entry))
  | .extendedReq request =>
      if request.requestName ≠ asBytes passwordModifyOid then return none
      else
        let target ← connector.passwordTarget request.requestValue
        return some (ldapAction .passwordReset target)
  | _ => return none

/-- The name a message claims: a simple bind with a name and a password. -/
def claim (message : LdapMessage) : Option (Nat × String) :=
  match message.protocolOp with
  | .bindRequest ⟨name, .simple password⟩ =>
      if name = "" ∨ password = [] then none
      else some (message.messageId, connector.capDn (connector.normalizeBindDn name))
  | _ => none

def bindRequest (frame : Bytes) : Except String (Option (Nat × String)) := do
  let message ← connector.decodeMessage "decoding LDAP message" frame
  return connector.claim message

def bindResponse (frame : Bytes) : Except String (Option (Nat × Bool)) := do
  let message ← connector.decodeMessage "decoding LDAP message" frame
  match message.protocolOp with
  | .bindResponse result => return some (message.messageId, decide (result.resultCode = .success))
  | _ => return none

def encodeMessage (context : String) (message : LdapMessage) : Except String Bytes :=
  match connector.ber.encode message with
  | some frame => .ok frame
  | none => .error context

/-- The response operation that belongs to a request. -/
def rejectionOp (result : LdapResult) : ProtocolOp → Option ProtocolOp
  | .modifyRequest _ => some (.modifyResponse result)
  | .delRequest _ => some (.delResponse result)
  | .addRequest _ => some (.addResponse result)
  | .modDnRequest _ => some (.modDnResponse result)
  | .extendedReq _ => some (.extendedResp ⟨result, none, none⟩)
  | _ => none

def buildRejection (frame : Bytes) (reason : String) : Except String Bytes := do
  let message ← connector.decodeMessage "decoding LDAP message for rejection" frame
  match rejectionOp ⟨.unwillingToPerform, "", reason⟩ message.protocolOp with
  | none => .error "cannot build a rejection for protocol op"
  | some response => connector.encodeMessage "encoding rejection response" ⟨message.messageId, response⟩

/-- The answer to a StartTLS request; nothing for any other frame. -/
def upgradeRequest (frame : Bytes) : Except String (Option Bytes) := do
  let message ← connector.decodeMessage "decoding LDAP message" frame
  match message.protocolOp with
  | .extendedReq request =>
      if request.requestName ≠ asBytes startTlsOid then return none
      else
        let response ← connector.encodeMessage "encoding StartTLS response"
          ⟨message.messageId, .extendedResp ⟨⟨.success, "", ""⟩, none, none⟩⟩
        return some response
  | _ => return none

end LdapConnector

end AiProtect
