import AiProtect.Core.Clock
import Mathlib.Data.String.Basic
import Mathlib.Order.Basic
import Mathlib.Order.Lattice

/-! # Actions, callers and decisions

The data a connector hands to the policy engine and what the engine answers.
-/

namespace AiProtect

inductive OperationKind where
  | accountLock
  | accountUnlock
  | delete
  | create
  | passwordReset
  | rename
  deriving DecidableEq, Repr

structure Action where
  backend : String
  operation : OperationKind
  target : String
  blastRadius : Nat
  deriving DecidableEq, Repr

structure Identity where
  name : String
  deriving DecidableEq, Repr

namespace Identity

theorem name_injective : Function.Injective Identity.name := by
  intro a b same
  cases a
  cases b
  exact congrArg Identity.mk same

/-- The derived `Ord`: strings compare by their UTF-8 bytes, that is, by code point. -/
instance : LinearOrder Identity := LinearOrder.lift' Identity.name name_injective

/-- The text of a peer's IP address, without its port, names an unbound connection. -/
def fromPeerAddr (ip : String) : Identity := ⟨"ip:" ++ ip⟩

def fromBindDn (dn : String) : Identity := ⟨"dn:" ++ dn⟩

theorem fromBindDn_injective : Function.Injective fromBindDn := by
  intro a b same
  have text : "dn:" ++ a = "dn:" ++ b := congrArg Identity.name same
  exact String.append_right_inj "dn:" |>.mp text

theorem fromBindDn_ne_fromPeerAddr (dn ip : String) : fromBindDn dn ≠ fromPeerAddr ip := by
  intro same
  have text : "dn:" ++ dn = "ip:" ++ ip := congrArg Identity.name same
  have chars := congrArg String.toList text
  simp at chars

end Identity

inductive Decision where
  | allow
  | block (reason : String)
  deriving DecidableEq, Repr

namespace Decision

def isAllow : Decision → Bool
  | allow => true
  | block _ => false

def isBlock : Decision → Bool
  | allow => false
  | block _ => true

@[simp] theorem isAllow_allow : isAllow allow = true := rfl
@[simp] theorem isAllow_block (reason : String) : isAllow (block reason) = false := rfl
@[simp] theorem isBlock_allow : isBlock allow = false := rfl
@[simp] theorem isBlock_block (reason : String) : isBlock (block reason) = true := rfl

theorem isAllow_eq_not_isBlock (decision : Decision) : decision.isAllow = !decision.isBlock := by
  cases decision <;> rfl

end Decision

structure PolicyContext where
  identity : Identity
  deriving DecidableEq, Repr

end AiProtect
