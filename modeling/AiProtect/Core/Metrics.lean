import AiProtect.Core.Action

/-! # Metrics

The counters and gauges the proxy keeps about itself. A recorder adds to them in the order
of the calls; whether one is installed does not matter to anything else. The gauges are
whole numbers here: they only ever move by one.
-/

namespace AiProtect

def operationLabel : OperationKind → String
  | .accountLock => "account_lock"
  | .accountUnlock => "account_unlock"
  | .delete => "delete"
  | .create => "create"
  | .passwordReset => "password_reset"
  | .rename => "rename"

def decisionLabel : Decision → String
  | .allow => "allow"
  | .block _ => "block"

/-- The labels of `ai_protect_policy_decisions_total`. -/
structure DecisionLabels where
  decision : String
  backend : String
  operation : String
  deriving DecidableEq, Repr

def decisionLabels (action : Action) (decision : Decision) : DecisionLabels :=
  ⟨decisionLabel decision, action.backend, operationLabel action.operation⟩

abbrev DecisionCounts := DecisionLabels → Nat

def recordDecision (counts : DecisionCounts) (action : Action) (decision : Decision) : DecisionCounts :=
  fun labels => if labels = decisionLabels action decision then counts labels + 1 else counts labels

end AiProtect
