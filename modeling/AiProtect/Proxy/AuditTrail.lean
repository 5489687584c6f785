import AiProtect.Proxy.Mediation

/-! # The audit trail

Every action that reaches the policies is accounted for twice: by a line of the audit log,
and by a counter that tells decisions, backends and operations apart. Both come before the
frame or its rejection is written. The invariant of this module says that over any run the
trail has one line for each call that was decided and acted on, and that the counters are
what counting the trail would give.
-/

namespace AiProtect.Process

open Places Runs

variable {connector : LdapConnector} {parse : String → Option (List PolicyEntry)}

/-- The counter a call belongs to, once it is decided. -/
def labelsOf (process : Process) (k : Nat) : Option DecisionLabels := do
  let call ← process.calls[k]?
  let decision ← call.decision
  some (decisionLabels call.action decision)

theorem labelsOf_eq {process : Process} {k : Nat} {call : Judgement} {decision : Decision}
    (found : process.calls[k]? = some call) (decided : call.decision = some decision) :
    process.labelsOf k = some (decisionLabels call.action decision) := by
  simp only [labelsOf, found, decided, bind, Option.bind_some]

/-- Each call that has been acted on has its line, and each one that has not is the one its
    connection is in the middle of. -/
structure Audited (process : Process) : Prop where
  once : (process.trail.map Prod.fst).Nodup
  lines : ∀ entry ∈ process.trail, ∃ call decision, process.calls[entry.1]? = some call ∧
    call.decision = some decision ∧ entry.2 = Audit.logDecision call.ctx.identity call.action decision
  logged : ∀ (k : Nat) (call : Judgement), process.calls[k]? = some call → call.logged = true →
    k ∈ process.trail.map Prod.fst
  unlogged : ∀ (k : Nat) (call : Judgement), process.calls[k]? = some call → call.logged = false →
    k ∉ process.trail.map Prod.fst ∧ ∃ connection, process.connections[call.connection]? = some connection ∧
      connection.judging = some k ∧ connection.closed = false
  counted : ∀ labels, process.decisions labels =
    process.trail.countP fun entry => process.labelsOf entry.1 = some labels

namespace Audited

variable {process after : Process}

/-- What is in the trail names a call that exists. -/
theorem trail_lt (audited : process.Audited) {k : Nat} (member : k ∈ process.trail.map Prod.fst) :
    k < process.calls.length := by
  obtain ⟨entry, inside, rfl⟩ := List.mem_map.mp member
  obtain ⟨call, -, found, -⟩ := audited.lines entry inside
  exact (List.getElem?_eq_some_iff.mp found).1

/-- What was counted stays counted where it was. -/
theorem labelsOf_grows (audited : process.Audited) (growth : Grows Judgement.Goes process.calls after.calls)
    {entry : Nat × Option Audit.Line} (member : entry ∈ process.trail) :
    after.labelsOf entry.1 = process.labelsOf entry.1 := by
  obtain ⟨call, decision, found, decided, -⟩ := audited.lines entry member
  obtain ⟨later, there, goes⟩ := growth entry.1 call found
  rw [labelsOf_eq found decided, labelsOf_eq there (goes.decided decision decided), goes.same.2.2.1]

theorem lines_grow (audited : process.Audited) (growth : Grows Judgement.Goes process.calls after.calls)
    {entry : Nat × Option Audit.Line} (member : entry ∈ process.trail) :
    ∃ call decision, after.calls[entry.1]? = some call ∧ call.decision = some decision ∧
      entry.2 = Audit.logDecision call.ctx.identity call.action decision := by
  obtain ⟨call, decision, found, decided, line⟩ := audited.lines entry member
  obtain ⟨later, there, goes⟩ := growth entry.1 call found
  refine ⟨later, decision, there, goes.decided decision decided, ?_⟩
  rw [goes.same.2.2.1, goes.same.2.2.2.1]
  exact line

theorem counted_grows (audited : process.Audited) (growth : Grows Judgement.Goes process.calls after.calls)
    (labels : DecisionLabels) :
    process.decisions labels = process.trail.countP fun entry => after.labelsOf entry.1 = some labels := by
  rw [audited.counted labels]
  apply List.countP_congr
  intro entry member
  rw [audited.labelsOf_grows growth member]

/-- A step that logs nothing: a call that is there was there, or is the new one of its
    connection, and a connection in the middle of a call is left alone. -/
theorem quiet (audited : process.Audited) (trail : after.trail = process.trail)
    (decisions : after.decisions = process.decisions) (growth : Grows Judgement.Goes process.calls after.calls)
    (calls : ∀ (k : Nat) (call : Judgement), after.calls[k]? = some call →
      (∃ old, process.calls[k]? = some old ∧ old.connection = call.connection ∧ old.logged = call.logged) ∨
        (process.calls.length ≤ k ∧ call.logged = false ∧ ∃ connection,
          after.connections[call.connection]? = some connection ∧ connection.judging = some k ∧
            connection.closed = false))
    (connections : ∀ (index : Nat) (connection : Connection) (k : Nat), process.connections[index]? = some connection →
      connection.judging = some k → after.connections[index]? = some connection) : after.Audited where
  once := by
    rw [trail]
    exact audited.once
  lines := by
    rw [trail]
    exact fun entry member => audited.lines_grow growth member
  logged := by
    intro k call found logged
    rw [trail]
    rcases calls k call found with ⟨old, before, -, same⟩ | ⟨-, unlogged, -⟩
    · exact audited.logged k old before (same.trans logged)
    · rw [unlogged] at logged
      cases logged
  unlogged := by
    intro k call found unlogged
    rw [trail]
    rcases calls k call found with ⟨old, before, origin, same⟩ | ⟨new, -, busy⟩
    · obtain ⟨absent, connection, there, judging, going⟩ := audited.unlogged k old before (same.trans unlogged)
      rw [origin] at there
      exact ⟨absent, connection, connections _ connection k there judging, judging, going⟩
    · exact ⟨fun member => Nat.not_lt.mpr new (audited.trail_lt member), busy⟩
  counted := by
    intro labels
    rw [trail, decisions]
    exact audited.counted_grows growth labels

/-- A call is logged and counted, and its connection goes on or ends. -/
theorem log (audited : process.Audited) {k : Nat} {call : Judgement} {decision : Decision} {next : Connection}
    (found : process.calls[k]? = some call) (decided : call.decision = some decision) (unlogged : call.logged = false)
    (calls : after.calls = process.calls.set k { call with logged := true })
    (trail : after.trail = process.trail ++ [(k, Audit.logDecision call.ctx.identity call.action decision)])
    (decisions : after.decisions = recordDecision process.decisions call.action decision)
    (connections : after.connections = process.connections.set call.connection next) : after.Audited := by
  obtain ⟨inside, -⟩ := List.getElem?_eq_some_iff.mp found
  obtain ⟨absent, connection, there, judging, -⟩ := audited.unlogged k call found unlogged
  have now : after.calls[k]? = some { call with logged := true } := by rw [calls, List.getElem?_set_self inside]
  have growth : Grows Judgement.Goes process.calls after.calls := by
    rw [calls]
    exact .set Judgement.goes found ⟨⟨rfl, rfl, rfl, rfl, rfl⟩, fun _ => id, fun _ => rfl⟩
  have names : after.trail.map Prod.fst = process.trail.map Prod.fst ++ [k] := by
    rw [trail, List.map_append, List.map_singleton]
  refine ⟨?_, ?_, ?_, ?_, ?_⟩
  · rw [names]
    exact List.nodup_append.mpr ⟨audited.once, List.nodup_singleton k, fun old member new last same =>
      absent (List.mem_singleton.mp last ▸ same ▸ member)⟩
  · intro entry member
    rw [trail] at member
    rcases List.mem_append.mp member with old | new
    · exact audited.lines_grow growth old
    · rw [List.mem_singleton.mp new]
      exact ⟨_, decision, now, decided, rfl⟩
  · intro other later there logged
    rw [names]
    rw [calls] at there
    rcases getElem?_set_cases there with ⟨rfl, rfl⟩ | ⟨-, old⟩
    · exact List.mem_append_right _ (List.mem_singleton_self _)
    · exact List.mem_append_left _ (audited.logged other later old logged)
  · intro other later there' waiting
    rw [calls] at there'
    rcases getElem?_set_cases there' with ⟨rfl, rfl⟩ | ⟨unlike, old⟩
    · cases waiting
    · obtain ⟨missing, busy, here, judges, going⟩ := audited.unlogged other later old waiting
      -- Two calls under way are on two connections, since each connection is in one of them.
      have apart : call.connection ≠ later.connection := by
        intro same
        rw [← same, there] at here
        cases here
        rw [judging] at judges
        exact unlike (Option.some.inj judges).symm
      refine ⟨?_, busy, ?_, judges, going⟩
      · rw [names, List.mem_append, List.mem_singleton]
        exact fun member => member.elim missing unlike
      · rw [connections, List.getElem?_set_ne apart]
        exact here
  · intro labels
    rw [trail, decisions, List.countP_append, ← audited.counted_grows growth labels, List.countP_singleton,
      recordDecision, labelsOf_eq now decided]
    by_cases mine : labels = decisionLabels call.action decision
    · simp [mine]
    · simp [mine, Ne.symm mine]

end Audited

theorem Change.audited {process after : Process} {label : ProcessLabel}
    (change : Change connector parse process label after) (audited : process.Audited) : after.Audited := by
  have growth := change.callsMove.grows
  cases change with
  | idle | turned _ _ | replaced _ _ _ _ | discarded _ _ _ _ | exited _ | closed _ _ | taskEnded _ _ _
  | drained _ _ _ _ | failed _ _ | merged _ _ =>
      exact audited.quiet rfl rfl growth (fun _ call found => .inl ⟨call, found, rfl, rfl⟩) fun _ _ _ found _ => found
  | accepted _ _ =>
      refine audited.quiet rfl rfl growth (fun _ call found => .inl ⟨call, found, rfl, rfl⟩) fun _ _ _ found _ => ?_
      rw [List.getElem?_append_left (List.getElem?_eq_some_iff.mp found).1]
      exact found
  | dropped _ there _ free | spoke there _ free _ _ _ =>
      refine audited.quiet rfl rfl growth (fun _ call found => .inl ⟨call, found, rfl, rfl⟩)
        fun index connection _ found judging => ?_
      refine (List.getElem?_set_ne fun same => ?_).trans found
      rw [← same, there] at found
      cases found
      rw [free] at judging
      cases judging
  | @opened index frame connection action bind there going free _ =>
      refine audited.quiet rfl rfl growth (fun k call found => ?_) fun other busy _ found judging => ?_
      · rcases getElem?_snoc_cases found with old | ⟨rfl, rfl⟩
        · exact .inl ⟨call, old, rfl, rfl⟩
        · obtain ⟨inside, -⟩ := List.getElem?_eq_some_iff.mp there
          exact .inr ⟨Nat.le_refl _, rfl, _, List.getElem?_set_self inside, rfl, going⟩
      · refine (List.getElem?_set_ne fun same => ?_).trans found
        rw [← same, there] at found
        cases found
        rw [free] at judging
        cases judging
  | returned there _ _ | passed there _ _ _ _ | blocked there _ _ _ _ =>
      refine audited.quiet rfl rfl growth (fun k call found => ?_) fun _ _ _ found _ => found
      rcases getElem?_set_cases found with ⟨rfl, rfl⟩ | ⟨-, old⟩
      · exact .inl ⟨_, there, rfl, rfl⟩
      · exact .inl ⟨call, old, rfl, rfl⟩
  | logged found decided unlogged _ _ _ => exact audited.log found decided unlogged rfl rfl rfl rfl
  | unanswerable found decided unlogged _ => exact audited.log found decided unlogged rfl rfl rfl rfl

theorem audited_start (configs : List (String × List ThresholdPolicy)) : (start configs).Audited := by
  obtain ⟨-, calls, trail, decisions, -⟩ := start_quiet configs
  refine ⟨?_, ?_, ?_, ?_, ?_⟩
  · rw [trail]
    exact List.nodup_nil
  · rw [trail]
    exact fun _ member => absurd member List.not_mem_nil
  · rw [calls]
    intro k call found
    cases found
  · rw [calls]
    intro k call found
    cases found
  · rw [trail, decisions]
    exact fun _ => rfl

end AiProtect.Process
