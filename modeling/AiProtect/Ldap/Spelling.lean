import AiProtect.Core.Lowercase
import AiProtect.Ldap.LockChange

/-! # Spellings of an attribute

A directory takes an attribute description in any letter case, with any options, and by
name or by OID. The connector compares descriptions twice, once with the table of lock
attributes and once with the patterns of the classifier. Neither comparison depends on
the spelling, so no spelling of a lock attribute hides a modify request from the policies.
-/

namespace AiProtect

namespace LdapConnector

variable (connector : LdapConnector)

/-- A description whose base is the name or the OID of a row of the table. -/
def Names (names : String × String) (attrType : String) : Prop :=
  connector.attributeBase attrType = names.1 ∨ connector.attributeBase attrType = names.2

/-- Two descriptions that a directory resolves to the same attribute. -/
inductive Spelling : String → String → Prop where
  | letterCase {attrType other : String} (same : SameButCase attrType other) : Spelling attrType other
  | options {attrType other : String} (same : splitFirst ';' attrType = splitFirst ';' other) :
      Spelling attrType other
  | oidForName {name oid : String} (row : (name, oid) ∈ lockAttributes) : Spelling name oid
  | nameForOid {name oid : String} (row : (name, oid) ∈ lockAttributes) : Spelling oid name
  /-- A name and an OID of some attribute that the table does not list. -/
  | unlisted {attrType other : String} (first : ∀ names ∈ lockAttributes, ¬ connector.Names names attrType)
      (second : ∀ names ∈ lockAttributes, ¬ connector.Names names other) : Spelling attrType other
  | trans {attrType middle other : String} (first : Spelling attrType middle)
      (second : Spelling middle other) : Spelling attrType other

/-- A change with its attribute spelled differently, or not. -/
structure Respelled (change other : ModifyRequestChanges) : Prop where
  operation : other.operation = change.operation
  vals : other.modification.vals = change.modification.vals
  type : connector.Spelling change.modification.type other.modification.type

variable {connector}

theorem isLockAttribute_iff {attrType : String} :
    connector.isLockAttribute attrType = true ↔ ∃ names ∈ lockAttributes, connector.Names names attrType := by
  simp only [isLockAttribute, Names, List.any_eq_true, Bool.or_eq_true, decide_eq_true_eq]

theorem isAscii_lockAttributes : ∀ names ∈ lockAttributes, IsAscii names.1 ∧ IsAscii names.2 := by
  decide

/-- The names and OIDs of the table are their own bases. -/
theorem attributeBase_lockAttributes (connector : LdapConnector) {names : String × String} (row : names ∈ lockAttributes) :
    connector.attributeBase names.1 = names.1 ∧ connector.attributeBase names.2 = names.2 := by
  have plain : ∀ names ∈ lockAttributes, ∀ text ∈ [names.1, names.2], splitFirst ';' text = text ∧
      text.toList.all (fun char => char.toNat < 128 && char.toLower == char) = true := by
    decide +kernel
  have base : ∀ text ∈ [names.1, names.2], connector.attributeBase text = text := by
    intro text member
    obtain ⟨whole, lower⟩ := plain names row text member
    rw [attributeBase, whole, Unicode.toLowercase_eq_self lower]
  exact ⟨base names.1 (by simp), base names.2 (by simp)⟩

theorem names_name_iff_oid {name oid : String} (listed : (name, oid) ∈ lockAttributes)
    {names : String × String} (member : names ∈ lockAttributes) :
    connector.Names names name ↔ connector.Names names oid := by
  have apart : ∀ row ∈ lockAttributes, ∀ names ∈ lockAttributes,
      ((row.1 = names.1 ∨ row.1 = names.2) ↔ (row.2 = names.1 ∨ row.2 = names.2)) := by
    decide
  obtain ⟨ownName, ownOid⟩ := connector.attributeBase_lockAttributes listed
  unfold Names
  rw [ownName, ownOid]
  exact apart (name, oid) listed names member

/-- All spellings of an attribute name the same row of the table, or none of them does. -/
theorem Spelling.names_iff {attrType other : String} (spelling : connector.Spelling attrType other) :
    ∀ names ∈ lockAttributes, (connector.Names names attrType ↔ connector.Names names other) := by
  induction spelling with
  | letterCase same =>
      intro names row
      obtain ⟨name, oid⟩ := isAscii_lockAttributes names row
      have base := same.splitFirst ';' (by decide)
      exact or_congr (Unicode.toLowercase_eq_iff base name) (Unicode.toLowercase_eq_iff base oid)
  | options same =>
      intro names _
      simp only [Names, attributeBase, same]
  | oidForName row => exact fun names member => names_name_iff_oid row member
  | nameForOid row => exact fun names member => (names_name_iff_oid row member).symm
  | unlisted first second => exact fun names row => iff_of_false (first names row) (second names row)
  | trans _ _ first second => exact fun names row => (first names row).trans (second names row)

theorem Spelling.isLockAttribute_eq {attrType other : String} (spelling : connector.Spelling attrType other) :
    connector.isLockAttribute attrType = connector.isLockAttribute other := by
  rw [Bool.eq_iff_iff, isLockAttribute_iff, isLockAttribute_iff]
  constructor
  · rintro ⟨names, row, found⟩
    exact ⟨names, row, (spelling.names_iff names row).mp found⟩
  · rintro ⟨names, row, found⟩
    exact ⟨names, row, (spelling.names_iff names row).mpr found⟩

/-- The classifier's patterns are rows of the table, so it does not depend on the spelling. -/
theorem Spelling.classifyLockWrite_eq {attrType other : String} (spelling : connector.Spelling attrType other)
    (values : List Bytes) :
    connector.classifyLockWrite attrType values = connector.classifyLockWrite other values := by
  have control := spelling.names_iff ("useraccountcontrol", "1.2.840.113556.1.4.8") (by decide)
  have lock := spelling.names_iff ("nsaccountlock", "2.16.840.1.113730.3.1.220") (by decide)
  unfold Names at control lock
  simp only [classifyLockWrite, control, lock]

section Changes

variable {changes others : List ModifyRequestChanges}

/-- The first change that matches is found at the same place under every spelling. -/
theorem find?_respelled (operations : List ChangeOperation)
    (respelled : List.Forall₂ connector.Respelled changes others) :
    Option.Rel connector.Respelled
      (changes.find? fun change =>
        operations.contains change.operation && connector.isLockAttribute change.modification.type)
      (others.find? fun change =>
        operations.contains change.operation && connector.isLockAttribute change.modification.type) := by
  induction respelled with
  | nil => exact .none
  | @cons change other _ _ same _ ih =>
      have test : (operations.contains other.operation && connector.isLockAttribute other.modification.type) =
          (operations.contains change.operation &&
            connector.isLockAttribute change.modification.type) := by
        rw [same.operation, same.type.isLockAttribute_eq]
      simp only [List.find?_cons, test]
      split
      · exact .some same
      · exact ih

theorem modifyOperation_respelled (object : String)
    (respelled : List.Forall₂ connector.Respelled changes others) :
    connector.modifyOperation ⟨object, others⟩ = connector.modifyOperation ⟨object, changes⟩ := by
  unfold modifyOperation findChange
  have written := find?_respelled [.add, .replace] respelled
  have deleted := find?_respelled [.delete] respelled
  generalize changes.find? _ = first at written ⊢
  generalize others.find? _ = first' at written ⊢
  generalize changes.find? _ = delete at deleted ⊢
  generalize others.find? _ = delete' at deleted ⊢
  cases written with
  | some same => simp only [same.type.classifyLockWrite_eq, same.vals]
  | none =>
      cases deleted with
      | some _ => rfl
      | none => rfl

end Changes

theorem isSome_findChange_iff {operations : List ChangeOperation} {modify : ModifyRequest} :
    (connector.findChange operations modify).isSome = true ↔
      ∃ change ∈ modify.changes, change.operation ∈ operations ∧
        connector.isLockAttribute change.modification.type = true := by
  simp only [findChange, List.find?_isSome, Bool.and_eq_true, List.contains_iff_mem]

/-- Every change that names a lock attribute counts, by a write or by a deletion. -/
theorem isSome_modifyOperation_iff {modify : ModifyRequest} :
    (connector.modifyOperation modify).isSome = true ↔
      ∃ change ∈ modify.changes, connector.isLockAttribute change.modification.type = true := by
  constructor
  · intro operation
    unfold modifyOperation at operation
    cases written : connector.findChange [.add, .replace] modify with
    | some _ =>
        obtain ⟨change, member, -, lock⟩ := isSome_findChange_iff.mp (Option.isSome_of_eq_some written)
        exact ⟨change, member, lock⟩
    | none =>
        rw [written, Option.isSome_map] at operation
        obtain ⟨change, member, -, lock⟩ := isSome_findChange_iff.mp operation
        exact ⟨change, member, lock⟩
  · rintro ⟨change, member, lock⟩
    unfold modifyOperation
    cases written : connector.findChange [.add, .replace] modify with
    | some _ => rfl
    | none =>
        have inside : change ∈ connector.lockChanges modify := List.mem_filter.mpr ⟨member, lock⟩
        have delete := delete_of_findChange_none written inside
        rw [Option.isSome_map, isSome_findChange_iff]
        exact ⟨change, member, by rw [delete]; decide, lock⟩

/-- A modify request is put to the policies exactly if one of its changes names a lock
    attribute, and no respelling of its attributes changes what they are asked. -/
theorem lock_detection_complete (connector : LdapConnector) {frame : Bytes} {messageId : Nat}
    {modify : ModifyRequest} (decoded : connector.ber.decode frame = some ⟨messageId, .modifyRequest modify⟩) :
    ((∃ action, connector.decode frame = .ok (some action)) ↔
        ∃ change ∈ modify.changes, ∃ names ∈ lockAttributes,
          connector.attributeBase change.modification.type = names.1 ∨
            connector.attributeBase change.modification.type = names.2) ∧
      ∀ {other : Bytes} {otherId : Nat} {others : List ModifyRequestChanges},
        connector.ber.decode other = some ⟨otherId, .modifyRequest ⟨modify.object, others⟩⟩ →
          List.Forall₂ connector.Respelled modify.changes others →
            connector.decode other = connector.decode frame := by
  constructor
  · rw [decode_modify decoded]
    have present : (∃ action, (Except.ok ((connector.modifyOperation modify).map fun operation =>
        ldapAction operation (connector.capDn modify.object)) : Except String (Option Action)) =
          .ok (some action)) ↔ (connector.modifyOperation modify).isSome = true := by
      cases connector.modifyOperation modify with
      | none => simp
      | some operation => simp
    rw [present, isSome_modifyOperation_iff]
    simp only [isLockAttribute_iff, Names]
  · intro other otherId others respelledDecoded respelled
    rw [decode_modify decoded, decode_modify respelledDecoded, modifyOperation_respelled _ respelled]

/-- The attributes of `enableModify`, one by its OID with an option, one in capitals. -/
def respelledModify : ModifyRequest :=
  ⟨"cn=a", [⟨.replace, ⟨"1.2.840.113556.1.4.8;x-a", [asBytes "512"]⟩⟩, ⟨.delete, ⟨"SHADOWEXPIRE", []⟩⟩]⟩

def respelledFrame : Bytes :=
  [0x30, 0x4c, 0x02, 0x01, 0x02, 0x66, 0x47, 0x04, 0x04, 0x63, 0x6e, 0x3d, 0x61, 0x30, 0x3f, 0x30, 0x26, 0x0a, 0x01,
    0x02, 0x30, 0x21, 0x04, 0x18, 0x31, 0x2e, 0x32, 0x2e, 0x38, 0x34, 0x30, 0x2e, 0x31, 0x31, 0x33, 0x35, 0x35, 0x36,
    0x2e, 0x31, 0x2e, 0x34, 0x2e, 0x38, 0x3b, 0x78, 0x2d, 0x61, 0x31, 0x05, 0x04, 0x03, 0x35, 0x31, 0x32, 0x30, 0x15,
    0x0a, 0x01, 0x01, 0x30, 0x10, 0x04, 0x0c, 0x53, 0x48, 0x41, 0x44, 0x4f, 0x57, 0x45, 0x58, 0x50, 0x49, 0x52, 0x45,
    0x31, 0x00]

/-- A codec that knows the two requests. -/
def respelledConnector : LdapConnector where
  ber :=
    { decode := fun bytes =>
        if bytes = enableFrame then some ⟨1, .modifyRequest enableModify⟩
        else if bytes = respelledFrame then some ⟨2, .modifyRequest respelledModify⟩
        else none
      encode := fun _ => none
      decodePasswdModify := fun _ => none }
  unicode := ⟨fun char => [char], fun _ => false, fun _ => false⟩
  dnHash := fun _ => 0

theorem respelled_enable : List.Forall₂ respelledConnector.Respelled enableModify.changes respelledModify.changes := by
  have control : respelledConnector.Spelling "userAccountControl" "1.2.840.113556.1.4.8;x-a" := by
    apply Spelling.trans (Spelling.letterCase (by decide : SameButCase _ "useraccountcontrol"))
    apply Spelling.trans (Spelling.oidForName (by decide : (_, "1.2.840.113556.1.4.8") ∈ lockAttributes))
    exact Spelling.options (by decide +kernel)
  have expire : respelledConnector.Spelling "shadowExpire" "SHADOWEXPIRE" := Spelling.letterCase (by decide)
  exact .cons ⟨rfl, rfl, control⟩ (.cons ⟨rfl, rfl, expire⟩ .nil)

theorem lock_detection_complete_enable :
    (∃ action, respelledConnector.decode enableFrame = .ok (some action)) ∧
      respelledConnector.decode respelledFrame = respelledConnector.decode enableFrame := by
  have known : respelledConnector.ber.decode enableFrame = some ⟨1, .modifyRequest enableModify⟩ := by
    decide +kernel
  have respelledKnown : respelledConnector.ber.decode respelledFrame =
      some ⟨2, .modifyRequest ⟨enableModify.object, respelledModify.changes⟩⟩ := by
    decide +kernel
  obtain ⟨found, unchanged⟩ := lock_detection_complete respelledConnector known
  refine ⟨found.mpr ?_, unchanged respelledKnown respelled_enable⟩
  exact ⟨⟨.replace, ⟨"userAccountControl", [asBytes "512"]⟩⟩, List.mem_cons_self,
    ("useraccountcontrol", "1.2.840.113556.1.4.8"), by decide, .inl (by decide +kernel)⟩

end LdapConnector

end AiProtect
