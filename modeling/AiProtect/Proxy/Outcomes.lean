import AiProtect.Proxy.Mediation

/-! # What becomes of a request

Mediation says that nothing is written that was not decided. Here is the other half: what is
decided is also carried out, and every request is decided. A call asks its policies one after
the other and waits for nothing else, so it needs as many turns as it has policies left, and
one more to return. Other connections, reloads and syncs may come in between, as many as they
like; they do not take these turns from it.
-/

namespace AiProtect

open Runs Places

/-- What a later step leaves of a connection. -/
structure Connection.Goes (connection later : Connection) : Prop where
  upstream : connection.toUpstream <+: later.toUpstream
  client : connection.toClient <+: later.toClient
  closed : connection.closed = true → later.closed = true

theorem Connection.goes (connection : Connection) : connection.Goes connection :=
  ⟨List.prefix_refl _, List.prefix_refl _, id⟩

/-- The frame has been passed on, or its rejection sent; a connection that can build none
    has ended. -/
def Connection.CarriedOut (connector : LdapConnector) (connection : Connection) (k : Nat) (call : Judgement) : Prop :=
  match call.decision with
  | none => False
  | some .allow => ⟨call.frame, some k⟩ ∈ connection.toUpstream
  | some (.block reason) =>
      match connector.buildRejection call.frame reason with
      | .ok rejection => ⟨rejection, some k⟩ ∈ connection.toClient
      | .error _ => connection.closed = true

theorem Connection.CarriedOut.goes {connector : LdapConnector} {connection later : Connection} {k : Nat}
    {call now : Judgement} (carried : connection.CarriedOut connector k call) (onward : connection.Goes later)
    (goes : call.Goes now) : later.CarriedOut connector k now := by
  cases decided : call.decision with
  | none =>
      simp only [CarriedOut, decided] at carried
  | some decision =>
      simp only [CarriedOut, decided] at carried
      simp only [CarriedOut, goes.decided decision decided, goes.same.2.1]
      cases decision with
      | allow => exact onward.upstream.subset carried
      | block reason =>
          simp only at carried ⊢
          split
          · rename_i rejection built
            rw [built] at carried
            exact onward.client.subset carried
          · rename_i text failed
            rw [failed] at carried
            exact onward.closed carried

theorem Judgement.Goes.trans {call middle later : Judgement} (first : call.Goes middle) (second : middle.Goes later) :
    call.Goes later where
  same := by
    obtain ⟨connection, frame, action, ctx, policies⟩ := second.same
    rw [connection, frame, action, ctx, policies]
    exact first.same
  decided := fun decision decided => second.decided decision (first.decided decision decided)
  logged := fun logged => second.logged (first.logged logged)

/-- How many turns a call needs until it is decided. -/
def Judgement.turns (call : Judgement) : Nat :=
  if call.decision.isSome = true then 0 else call.policies.length - call.next + 1

namespace Process

variable {connector : LdapConnector} {parse : String → Option (List PolicyEntry)}
variable {process after : Process} {label : ProcessLabel}

/-- A connection takes back nothing it has written. -/
theorem Change.goes (change : Change connector parse process label after) :
    Grows Connection.Goes process.connections after.connections := by
  cases change with
  | accepted _ _ => exact .append Connection.goes _ _
  | dropped _ there _ _ => exact .set Connection.goes there ⟨List.prefix_refl _, List.prefix_refl _, fun _ => rfl⟩
  | opened _ there _ _ _ => exact .set Connection.goes there ⟨List.prefix_refl _, List.prefix_refl _, id⟩
  | unanswerable _ _ _ there =>
      exact .set Connection.goes there ⟨List.prefix_refl _, List.prefix_refl _, fun _ => rfl⟩
  | spoke there _ _ same upstream client =>
      refine .set Connection.goes there ⟨?_, ?_, fun closed => (by rw [same]; exact closed)⟩
      · rcases upstream with kept | ⟨frame, -, added⟩
        · rw [kept]
        · rw [added]
          exact List.prefix_append _ _
      · rcases client with kept | ⟨frame, added⟩
        · rw [kept]
        · rw [added]
          exact List.prefix_append _ _
  | logged _ _ _ there same sent =>
      refine .set Connection.goes there ⟨?_, ?_, fun closed => (by rw [same]; exact closed)⟩
      · rcases sent with ⟨-, added, -⟩ | ⟨_, _, -, -, kept, -⟩
        · rw [added]
          exact List.prefix_append _ _
        · rw [kept]
      · rcases sent with ⟨-, -, kept⟩ | ⟨_, _, -, -, -, added⟩
        · rw [kept]
        · rw [added]
          exact List.prefix_append _ _
  | _ => exact .refl Connection.goes _

variable (connector) in
/-- What has been logged has been carried out. -/
def Settled (process : Process) : Prop :=
  ∀ (k : Nat) (call : Judgement), process.calls[k]? = some call → call.logged = true →
    ∃ connection, process.connections[call.connection]? = some connection ∧
      connection.CarriedOut connector k call

/-- What a step other than `log` leaves logged was logged before. -/
theorem Change.logged_before (change : Change connector parse process label after) (quiet : ∀ k, label ≠ .log k)
    {k : Nat} {call : Judgement} (found : after.calls[k]? = some call) (logged : call.logged = true) :
    ∃ old, process.calls[k]? = some old ∧ old.logged = true ∧ old.Goes call := by
  have growth := change.callsMove.grows
  have old : ∃ old, process.calls[k]? = some old ∧ old.logged = true := by
    cases change with
    | opened _ _ _ _ _ =>
        rcases getElem?_snoc_cases found with old | ⟨-, rfl⟩
        · exact ⟨call, old, logged⟩
        · cases logged
    | returned there _ _ | passed there _ _ _ _ | blocked there _ _ _ _ =>
        rcases getElem?_set_cases found with ⟨rfl, rfl⟩ | ⟨-, old⟩
        · exact ⟨_, there, logged⟩
        · exact ⟨call, old, logged⟩
    | logged _ _ _ _ _ _ | unanswerable _ _ _ _ => exact absurd rfl (quiet _)
    | _ => exact ⟨call, found, logged⟩
  obtain ⟨earlier, before, was⟩ := old
  obtain ⟨later, now, goes⟩ := growth k earlier before
  rw [found] at now
  cases now
  exact ⟨earlier, before, was, goes⟩

/-- A decided call is carried out by the step that logs it. -/
theorem settled_log (settled : process.Settled connector) (k : Nat) : (process.log connector k).Settled connector := by
  cases found : process.calls[k]? with
  | none =>
      simp only [log, found]
      exact settled
  | some call =>
      simp only [log, found]
      split
      · rename_i decision connection decided unlogged there
        -- The call itself is carried out now, and the others were before.
        have finish : ∀ next : Process, next.calls = process.calls.set k { call with logged := true } →
            ∀ mine : Connection, next.connections = process.connections.set call.connection mine →
              connection.Goes mine → mine.CarriedOut connector k { call with logged := true } →
              next.Settled connector := by
          intro next calls mine connections goes carried other later now logged
          rw [calls] at now
          have inside := (List.getElem?_eq_some_iff.mp there).1
          rcases getElem?_set_cases now with ⟨rfl, rfl⟩ | ⟨-, old⟩
          · exact ⟨mine, by rw [connections]; exact List.getElem?_set_self inside, carried⟩
          · obtain ⟨owner, here, before⟩ := settled other later old logged
            have growth : Grows Connection.Goes process.connections next.connections := by
              rw [connections]
              exact .set Connection.goes there goes
            obtain ⟨now, present, onward⟩ := growth _ owner here
            exact ⟨now, present, before.goes onward later.goes⟩
        cases decision with
        | allow =>
            refine finish _ rfl _ rfl ⟨List.prefix_append _ _, List.prefix_refl _, id⟩ ?_
            simp only [Connection.CarriedOut, decided]
            exact List.mem_append_right _ (List.mem_singleton_self _)
        | block reason =>
            cases built : connector.buildRejection call.frame reason with
            | error text =>
                simp only [built]
                refine finish _ rfl _ rfl ⟨List.prefix_refl _, List.prefix_refl _, fun _ => rfl⟩ ?_
                simp only [Connection.CarriedOut, decided, built]
            | ok rejection =>
                simp only [built]
                refine finish _ rfl _ rfl ⟨List.prefix_refl _, List.prefix_append _ _, id⟩ ?_
                simp only [Connection.CarriedOut, decided, built]
                exact List.mem_append_right _ (List.mem_singleton_self _)
      · exact settled

theorem Settled.step (settled : process.Settled connector) (label : ProcessLabel) :
    (process.step connector parse label).Settled connector := by
  by_cases logs : ∃ k, label = .log k
  · obtain ⟨k, rfl⟩ := logs
    exact settled_log settled k
  · have change := @change connector parse process label
    intro k call found logged
    obtain ⟨old, before, was, goes⟩ := change.logged_before (fun k same => logs ⟨k, same⟩) found logged
    obtain ⟨connection, there, carried⟩ := settled k old before was
    obtain ⟨later, now, onward⟩ := change.goes _ connection there
    rw [goes.same.1]
    exact ⟨later, now, carried.goes onward goes⟩

section Turns

theorem turns_of_decided {call : Judgement} {decision : Decision} (decided : call.decision = some decision) :
    call.turns = 0 := by
  simp only [Judgement.turns, decided, Option.isSome_some, if_true]

theorem turns_passed {call : Judgement} (undecided : call.decision = none) (inside : call.next < call.policies.length) :
    ({ call with next := call.next + 1 } : Judgement).turns ≤ call.turns - 1 := by
  simp only [Judgement.turns, undecided, Option.isSome_none, Bool.false_eq_true, if_false]
  omega

/-- The turns a call of the process needs. -/
def turnsOf (k : Nat) (process : Process) : Nat := process.calls[k]?.elim 0 Judgement.turns

/-- The turns of a call. -/
def advances (k : Nat) : ProcessLabel → Bool
  | .advance call _ => call == k
  | _ => false

/-- Nothing makes a call need more turns. -/
theorem Change.turns_le (change : Change connector parse process label after) {k : Nat}
    (there : k < process.calls.length) : after.turnsOf k ≤ process.turnsOf k := by
  have swap : ∀ {j : Nat} {call next : Judgement}, process.calls[j]? = some call → next.turns ≤ call.turns →
      ((process.calls.set j next)[k]?).elim 0 Judgement.turns ≤ process.turnsOf k := by
    intro j call next found fewer
    by_cases here : j = k
    · subst here
      rw [List.getElem?_set_self there, turnsOf, found]
      exact fewer
    · rw [List.getElem?_set_ne here]
      exact Nat.le_refl _
  cases change with
  | opened _ _ _ _ _ =>
      simp only [turnsOf, List.getElem?_append_left there]
      exact Nat.le_refl _
  | returned found _ _ | blocked found _ _ _ _ =>
      refine swap found ?_
      rw [turns_of_decided rfl]
      exact Nat.zero_le _
  | passed found undecided asked _ _ =>
      exact swap found ((turns_passed undecided (List.getElem?_eq_some_iff.mp asked).1).trans (Nat.sub_le _ _))
  | logged found _ _ _ _ _ | unanswerable found _ _ _ => exact swap found (Nat.le_refl _)
  | _ => exact Nat.le_refl _

/-- Each turn of a call brings it nearer to its decision, since the policies of its list are
    there to be asked. -/
theorem turns_advance (sound : process.Sound connector) {k : Nat} (there : k < process.calls.length) (now : Int) :
    (process.advance k now).turnsOf k ≤ process.turnsOf k - 1 := by
  have found := List.getElem?_eq_getElem there
  generalize process.calls[k] = call at found
  cases undecided : call.decision with
  | some decision =>
      simp only [advance, found, undecided, turnsOf, Option.elim_some, turns_of_decided undecided]
      exact Nat.le_refl _
  | none =>
      cases asked : call.policies[call.next]? with
      | none =>
          simp only [advance, found, undecided, asked, turnsOf, List.getElem?_set_self there, Option.elim_some]
          rw [turns_of_decided rfl]
          exact Nat.zero_le _
      | some handle =>
          have inside := (List.getElem?_eq_some_iff.mp asked).1
          have built := (sound.recorded.listed call (List.mem_of_getElem? found)).2 handle (List.mem_of_getElem? asked)
          have slot := List.getElem?_eq_getElem built
          rcases verdict : process.slots[handle].evaluate k call.action call.ctx now with ⟨_ | reason, later⟩
          · have step : process.advance k now = { process with
                slots := process.slots.set handle later
                calls := process.calls.set k { call with next := call.next + 1 } } := by
              simp only [advance, found, undecided, asked, slot, verdict]
            rw [step, turnsOf, turnsOf, found, List.getElem?_set_self there]
            exact turns_passed undecided inside
          · simp only [advance, found, undecided, asked, slot, verdict, turnsOf, List.getElem?_set_self there,
              Option.elim_some]
            rw [turns_of_decided rfl]
            exact Nat.zero_le _

end Turns

/-- The step that logs a decided call. -/
theorem logged_log {k : Nat} {call : Judgement} {decision : Decision} {connection : Connection}
    (found : process.calls[k]? = some call) (decided : call.decision = some decision)
    (there : process.connections[call.connection]? = some connection) :
    (process.log connector k).calls[k]? = some { call with logged := true } := by
  have inside := (List.getElem?_eq_some_iff.mp found).1
  cases logged : call.logged with
  | true =>
      have same : ({ call with logged := true } : Judgement) = call := by rw [← logged]
      rw [same]
      simp only [log, found, decided, logged]
  | false =>
      simp only [log, found, decided, logged, there]
      cases decision with
      | allow => exact List.getElem?_set_self inside
      | block reason =>
          simp only
          split <;> exact List.getElem?_set_self inside

variable (connector parse) in
/-- What is left of a call by a run. -/
theorem call_goes (process : Process) (labels : List ProcessLabel) {k : Nat} {call : Judgement}
    (found : process.calls[k]? = some call) :
    ∃ later, (labels.foldl (step connector parse) process).calls[k]? = some later ∧ call.Goes later := by
  induction labels generalizing process call with
  | nil => exact ⟨call, found, call.goes⟩
  | cons label rest ih =>
      obtain ⟨next, there, goes⟩ := (@change connector parse process label).callsMove.grows k call found
      obtain ⟨later, now, onward⟩ := ih (process.step connector parse label) there
      exact ⟨later, now, goes.trans onward⟩

/-- A connection comes and asks. -/
def approach : List ProcessLabel := [.accept 0 "10.0.0.1", .receive 0 Relay.deleteFrame]

/-- A second connection comes and asks while the call is under way, and the policies are
    replaced. -/
def disturbance : List ProcessLabel :=
  [.accept 0 "10.0.0.2", .receive 1 Relay.deleteFrame, .advance 0 5, .hangup, .advance 1 5,
    .load (some "closed") fun _ => .absent, .advance 0 6]

/-- The call it comes into. -/
def disturbed : Judgement where
  connection := 0
  frame := Relay.deleteFrame
  action := ⟨"ldap", .delete, "cn=a", 1⟩
  ctx := ⟨Identity.fromPeerAddr "10.0.0.1"⟩
  policies := [0]
  next := 0
  decision := none
  logged := false

end Process

end AiProtect
