import AiProtect.Ldap.Connector

/-! # When a modify request counts as an unlock

A modify request may carry any number of changes to lock attributes. The connector
files the whole request by one of them: the first value of the first one that adds or
replaces. The theorem of this module says for which requests that is right, for a
reading of `unlock` that looks at every change and every value.
-/

namespace AiProtect

namespace LdapConnector

variable (connector : LdapConnector)

/-- A value that leaves the account enabled, of an attribute for which values tell. -/
def unlockingValue (attrType : String) (value : Bytes) : Bool :=
  match (fromUtf8 value).map trim with
  | none => false
  | some text =>
      (["useraccountcontrol", "1.2.840.113556.1.4.8"].contains (connector.attributeBase attrType) &&
          (parseU32 text).any fun flags => decide (flags &&& uacAccountDisable = 0)) ||
        (["nsaccountlock", "2.16.840.1.113730.3.1.220"].contains (connector.attributeBase attrType) &&
          decide (connector.unicode.toLowercase text = "false"))

/-- A change that unlocks: it deletes the attribute, or writes one value, an unlocking one. -/
def unlocks (change : ModifyRequestChanges) : Bool :=
  match change.operation, change.modification.vals with
  | .delete, _ => true
  | _, [value] => connector.unlockingValue change.modification.type value
  | _, _ => false

/-- The changes of a request that name a lock attribute. -/
def lockChanges (modify : ModifyRequest) : List ModifyRequestChanges :=
  modify.changes.filter fun change => connector.isLockAttribute change.modification.type

/-- An unlock is reported only if every change of a lock attribute unlocks; if one does
    not, a lock is reported. -/
def FiledRightly (modify : ModifyRequest) (outcome : Except String (Option Action)) : Prop :=
  (∀ action, outcome = .ok (some action) → action.operation = .accountUnlock →
      ∀ change ∈ connector.lockChanges modify, connector.unlocks change = true) ∧
    ((∃ change ∈ connector.lockChanges modify, connector.unlocks change = false) →
      ∃ action, outcome = .ok (some action) ∧ action.operation = .accountLock)

/-- If the first value of the first write to a lock attribute unlocks, then so does every
    write to one. -/
def FirstWriteTells (modify : ModifyRequest) : Prop :=
  ∀ first ∈ connector.findChange [.add, .replace] modify,
    connector.classifyLockWrite first.modification.type first.modification.vals = some .accountUnlock →
      ∀ change ∈ connector.lockChanges modify, change.operation ≠ .delete → connector.unlocks change = true

instance (modify : ModifyRequest) : Decidable (connector.FirstWriteTells modify) :=
  inferInstanceAs (Decidable (∀ first ∈ connector.findChange [.add, .replace] modify,
    connector.classifyLockWrite first.modification.type first.modification.vals = some .accountUnlock →
      ∀ change ∈ connector.lockChanges modify, change.operation ≠ .delete → connector.unlocks change = true))

variable {connector}

theorem unlocks_delete {change : ModifyRequestChanges} (delete : change.operation = .delete) :
    connector.unlocks change = true := by
  simp only [unlocks, delete]

/-- A request without a write to a lock attribute deletes all the lock attributes it names. -/
theorem delete_of_findChange_none {modify : ModifyRequest}
    (unwritten : connector.findChange [.add, .replace] modify = none) {change : ModifyRequestChanges}
    (member : change ∈ connector.lockChanges modify) : change.operation = .delete := by
  obtain ⟨inside, lock⟩ := List.mem_filter.mp member
  have rejected := List.find?_eq_none.mp unwritten change inside
  rw [lock, Bool.and_true] at rejected
  cases operation : change.operation with
  | delete => rfl
  | add | replace =>
      rw [operation] at rejected
      exact absurd rfl rejected

/-- What a value tells is a lock or an unlock. -/
theorem classifyLockWrite_lock_or_unlock (attrType : String) (values : List Bytes)
    {operation : OperationKind}
    (told : connector.classifyLockWrite attrType values = some operation) :
    operation = .accountLock ∨ operation = .accountUnlock := by
  simp only [classifyLockWrite, Option.bind_eq_bind, Option.bind_eq_some_iff] at told
  obtain ⟨value, -, text, -, told⟩ := told
  split at told
  · simp only [classifyUac, Option.bind_eq_bind, Option.bind_eq_some_iff, Option.pure_def,
      Option.some.injEq] at told
    obtain ⟨flags, -, rfl⟩ := told
    split
    · exact .inl rfl
    · exact .inr rfl
  · split at told
    · rw [classifyNsAccountLock] at told
      split at told
      · exact .inl (Option.some.inj told).symm
      · split at told
        · exact .inr (Option.some.inj told).symm
        · cases told
    · cases told

theorem classifyLockWrite_of_unlockingValue {attrType : String} {value : Bytes}
    (unlocking : connector.unlockingValue attrType value = true) :
    connector.classifyLockWrite attrType [value] = some .accountUnlock := by
  simp only [unlockingValue] at unlocking
  split at unlocking
  · cases unlocking
  · rename_i text decoded
    simp only [classifyLockWrite, List.head?_cons, decoded, Option.bind_eq_bind, Option.bind_some]
    simp only [List.contains_iff_mem, List.mem_cons, List.not_mem_nil, or_false, Bool.or_eq_true,
      Bool.and_eq_true, decide_eq_true_eq] at unlocking
    rcases unlocking with ⟨control, clear⟩ | ⟨lock, off⟩
    · obtain ⟨flags, parsed, clear⟩ := (Option.any_eq_true _ _).mp clear
      have bit : ¬ (flags &&& uacAccountDisable ≠ 0) := fun set => set (of_decide_eq_true clear)
      rw [if_pos control]
      simp only [classifyUac, parsed, Option.bind_eq_bind, Option.bind_some, if_neg bit, Option.pure_def]
    · have other : ¬ (connector.attributeBase attrType = "useraccountcontrol" ∨
          connector.attributeBase attrType = "1.2.840.113556.1.4.8") := by
        rcases lock with same | same <;> rw [same] <;> decide
      have notOn : ¬ connector.unicode.toLowercase text = "true" := by
        rw [off]
        decide
      rw [if_neg other, if_pos lock]
      simp only [classifyNsAccountLock, if_neg notOn, if_pos off]

/-- A request whose every change of a lock attribute unlocks is reported as an unlock. -/
theorem modifyOperation_of_unlocks {modify : ModifyRequest}
    (named : connector.lockChanges modify ≠ [])
    (all : ∀ change ∈ connector.lockChanges modify, connector.unlocks change = true) :
    connector.modifyOperation modify = some .accountUnlock := by
  simp only [modifyOperation]
  cases found : connector.findChange [.add, .replace] modify with
  | some first =>
      have matched := List.find?_some found
      rw [Bool.and_eq_true] at matched
      have member : first ∈ connector.lockChanges modify :=
        List.mem_filter.mpr ⟨List.mem_of_find?_eq_some found, matched.2⟩
      have unlock := all first member
      simp only [unlocks] at unlock
      split at unlock
      · rename_i delete
        rw [delete] at matched
        cases matched.1
      · rename_i vals _
        simp only [vals, classifyLockWrite_of_unlockingValue unlock, Option.getD_some]
      · cases unlock
  | none =>
      obtain ⟨change, member⟩ := List.exists_mem_of_ne_nil _ named
      have delete := delete_of_findChange_none found member
      obtain ⟨inside, lock⟩ := List.mem_filter.mp member
      have matched : (connector.findChange [.delete] modify).isSome = true := by
        rw [findChange, List.find?_isSome]
        exact ⟨change, inside, by rw [delete, lock]; rfl⟩
      obtain ⟨deleting, found⟩ := Option.isSome_iff_exists.mp matched
      simp only [found, Option.map_some]

theorem decode_modify {frame : Bytes} {messageId : Nat} {modify : ModifyRequest}
    (decoded : connector.ber.decode frame = some ⟨messageId, .modifyRequest modify⟩) :
    connector.decode frame = .ok ((connector.modifyOperation modify).map fun operation =>
      ldapAction operation (connector.capDn modify.object)) := by
  simp only [decode, decodeMessage, decoded]
  rfl

theorem filedRightly_iff_operation {modify : ModifyRequest} {target : String}
    {operation : Option OperationKind} :
    connector.FiledRightly modify (.ok (operation.map fun operation => ldapAction operation target)) ↔
      (operation = some .accountUnlock → ∀ change ∈ connector.lockChanges modify, connector.unlocks change = true) ∧
        ((∃ change ∈ connector.lockChanges modify, connector.unlocks change = false) →
          operation = some .accountLock) := by
  cases operation with
  | none => simp only [FiledRightly, Option.map_none, Except.ok.injEq, reduceCtorEq, false_implies,
      implies_true, false_and, exists_false]
  | some operation =>
      simp only [FiledRightly, Option.map_some, Except.ok.injEq, Option.some.injEq, forall_eq', exists_eq_left']
      rfl

/-- What does not tell an unlock counts as a lock. -/
theorem classifyLockWrite_getD {attrType : String} {values : List Bytes}
    (other : connector.classifyLockWrite attrType values ≠ some .accountUnlock) :
    (connector.classifyLockWrite attrType values).getD .accountLock = .accountLock := by
  cases told : connector.classifyLockWrite attrType values with
  | none => rfl
  | some operation =>
      rcases classifyLockWrite_lock_or_unlock _ _ told with rfl | rfl
      · rfl
      · exact absurd told other

/-- If every change of a lock attribute unlocks, any outcome is filed rightly. -/
theorem filed_of_unlocks {modify : ModifyRequest}
    (all : ∀ change ∈ connector.lockChanges modify, connector.unlocks change = true)
    (operation : Option OperationKind) :
    (operation = some .accountUnlock → ∀ change ∈ connector.lockChanges modify, connector.unlocks change = true) ∧
      ((∃ change ∈ connector.lockChanges modify, connector.unlocks change = false) →
        operation = some .accountLock) := by
  refine ⟨fun _ => all, ?_⟩
  rintro ⟨change, member, locks⟩
  rw [all change member] at locks
  cases locks

/-- A codec that knows one modify request, with an ASCII reading of names. -/
def modifyConnector (frame : Bytes) (modify : ModifyRequest) : LdapConnector where
  ber :=
    { decode := fun bytes => if bytes = frame then some ⟨1, .modifyRequest modify⟩ else none
      encode := fun _ => none
      decodePasswdModify := fun _ => none }
  unicode := ⟨fun char => [char], fun _ => false, fun _ => false⟩
  dnHash := fun _ => 0

/-- An account is enabled and its expiry removed. -/
def enableModify : ModifyRequest :=
  ⟨"cn=a", [⟨.replace, ⟨"userAccountControl", [asBytes "512"]⟩⟩, ⟨.delete, ⟨"shadowExpire", []⟩⟩]⟩

def enableFrame : Bytes :=
  [0x30, 0x46, 0x02, 0x01, 0x01, 0x66, 0x41, 0x04, 0x04, 0x63, 0x6e, 0x3d, 0x61, 0x30, 0x39, 0x30, 0x20, 0x0a, 0x01,
    0x02, 0x30, 0x1b, 0x04, 0x12, 0x75, 0x73, 0x65, 0x72, 0x41, 0x63, 0x63, 0x6f, 0x75, 0x6e, 0x74, 0x43, 0x6f, 0x6e,
    0x74, 0x72, 0x6f, 0x6c, 0x31, 0x05, 0x04, 0x03, 0x35, 0x31, 0x32, 0x30, 0x15, 0x0a, 0x01, 0x01, 0x30, 0x10, 0x04,
    0x0c, 0x73, 0x68, 0x61, 0x64, 0x6f, 0x77, 0x45, 0x78, 0x70, 0x69, 0x72, 0x65, 0x31, 0x00]

/-- One lock attribute is cleared, and the account is disabled by another. -/
def disguisedModify : ModifyRequest :=
  ⟨"cn=a", [⟨.replace, ⟨"nsAccountLock", [asBytes "FALSE"]⟩⟩, ⟨.replace, ⟨"userAccountControl", [asBytes "514"]⟩⟩]⟩

def disguisedFrame : Bytes :=
  [0x30, 0x4e, 0x02, 0x01, 0x01, 0x66, 0x49, 0x04, 0x04, 0x63, 0x6e, 0x3d, 0x61, 0x30, 0x41, 0x30, 0x1d, 0x0a, 0x01,
    0x02, 0x30, 0x18, 0x04, 0x0d, 0x6e, 0x73, 0x41, 0x63, 0x63, 0x6f, 0x75, 0x6e, 0x74, 0x4c, 0x6f, 0x63, 0x6b, 0x31,
    0x07, 0x04, 0x05, 0x46, 0x41, 0x4c, 0x53, 0x45, 0x30, 0x20, 0x0a, 0x01, 0x02, 0x30, 0x1b, 0x04, 0x12, 0x75, 0x73,
    0x65, 0x72, 0x41, 0x63, 0x63, 0x6f, 0x75, 0x6e, 0x74, 0x43, 0x6f, 0x6e, 0x74, 0x72, 0x6f, 0x6c, 0x31, 0x05, 0x04,
    0x03, 0x35, 0x31, 0x34]

end LdapConnector

end AiProtect
