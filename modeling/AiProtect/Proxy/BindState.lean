import AiProtect.Ldap.Connector
import AiProtect.Lib.RankIndex
import AiProtect.Lib.Runs

/-! # Bind claims and bound identities

A simple bind claims a name. The client direction stages the claim under the
request's message ID, and the upstream direction promotes it when a successful
response with that ID comes back. `BindRun` is one connection with the upstream
behind it; the ghost `verified` has the requests for which the upstream reported
success.

A claim is checked against its own response only if no older request with the same
ID is still open. The last theorem shows that this, at the moment a claim is
staged, is enough for every bound identity to be a verified one.
-/

namespace AiProtect

open RankIndex Runs

structure BindState where
  identity : Identity
  pending : Finmap fun _ : Nat => String

def maxPendingBinds : Nat := 1024

/-- Stage a claim, in place of the smallest message ID if there are too many. -/
def stagePendingBind (pending : Finmap fun _ : Nat => String) (messageId : Nat) (dn : String) :
    Finmap fun _ : Nat => String :=
  let room :=
    if maxPendingBinds ≤ pending.keys.card ∧ messageId ∉ pending then
      match first pending.keys with
      | some oldest => pending.erase oldest
      | none => pending
    else pending
  room.insert messageId dn

namespace BindState

/-- The state a connection starts with. -/
def start (ip : String) : BindState := ⟨Identity.fromPeerAddr ip, ∅⟩

def stage (state : BindState) : Option (Nat × String) → BindState
  | none => state
  | some (messageId, dn) => { state with pending := stagePendingBind state.pending messageId dn }

/-- The effect of a bind response with this message ID. -/
def resolve (state : BindState) (messageId : Nat) (success : Bool) : BindState :=
  match state.pending.lookup messageId with
  | none => state
  | some dn =>
      { identity := if success = true then Identity.fromBindDn dn else state.identity
        pending := state.pending.erase messageId }

end BindState

/-- `resolve_pending_bind`. -/
def resolvePendingBind (connector : LdapConnector) (state : BindState) (frame : Bytes) : Except String BindState := do
  match ← connector.bindResponse frame with
  | none => return state
  | some (messageId, success) => return state.resolve messageId success

theorem resolvePendingBind_eq (connector : LdapConnector) (state : BindState) (frame : Bytes) :
    resolvePendingBind connector state frame =
      match connector.bindResponse frame with
      | .error text => .error text
      | .ok none => .ok state
      | .ok (some (messageId, success)) => .ok (state.resolve messageId success) := by
  simp only [resolvePendingBind]
  rcases connector.bindResponse frame with text | _ | ⟨messageId, success⟩ <;> rfl

theorem lookup_stagePendingBind {pending : Finmap fun _ : Nat => String} {messageId id : Nat} {dn found : String}
    (here : (stagePendingBind pending messageId dn).lookup id = some found) :
    (id = messageId ∧ found = dn) ∨ (id ≠ messageId ∧ pending.lookup id = some found) := by
  simp only [stagePendingBind, lookup_insert_ite] at here
  by_cases same : id = messageId
  · rw [if_pos same] at here
    exact .inl ⟨same, (Option.some.inj here).symm⟩
  · rw [if_neg same] at here
    refine .inr ⟨same, ?_⟩
    split at here
    · split at here
      · rw [lookup_erase_ite] at here
        split at here
        · cases here
        · exact here
      · exact here
    · exact here

/-- An upstream frame on its way to the proxy, with the bind request it answers. -/
structure Upstream where
  frame : Bytes
  request : Option Bytes

/-- A connection: the frame the client direction is working on, the bind requests the
    upstream has yet to answer, and its frames in flight. -/
structure BindRun where
  state : BindState
  current : Option Bytes
  unanswered : List Bytes
  inFlight : List Upstream
  verified : List Bytes
  closed : Bool

inductive BindLabel where
  | read (frame : Bytes)
  | finish (decision : Decision)
  | answer (response : Bytes)
  | send (frame : Bytes)
  | deliver

namespace BindRun

variable (connector : LdapConnector)

/-- The message ID of a bind request, of any kind. -/
def bindId (frame : Bytes) : Option Nat :=
  match connector.ber.decode frame with
  | some ⟨messageId, .bindRequest _⟩ => some messageId
  | _ => none

/-- The name a frame claims, if it is a simple bind with a password. -/
def claimed (frame : Bytes) : Option String :=
  ((connector.ber.decode frame).bind connector.claim).map Prod.snd

/-- The client direction reads a frame and stages its claim. -/
def read (run : BindRun) (frame : Bytes) : BindRun :=
  match connector.bindRequest frame with
  | .error _ => { run with closed := true }
  | .ok claim => { run with state := run.state.stage claim, current := some frame }

/-- The frame is forwarded, unless it is an action that policies block. -/
def forwards (frame : Bytes) (decision : Decision) : Except String Bool := do
  match ← connector.decode frame with
  | none => return true
  | some _ => return decision.isAllow

def finish (run : BindRun) (decision : Decision) : BindRun :=
  match run.current with
  | none => run
  | some frame =>
      match forwards connector frame decision with
      | .error _ => { run with closed := true }
      | .ok true => { run with
          current := none
          unanswered := if (bindId connector frame).isSome then run.unanswered ++ [frame] else run.unanswered }
      | .ok false => { run with current := none }

/-- The upstream answers its oldest open bind request. -/
def answer (run : BindRun) (response : Bytes) : BindRun :=
  match run.unanswered, connector.bindResponse response with
  | request :: rest, .ok (some (messageId, success)) =>
      if bindId connector request = some messageId then
        { run with
          unanswered := rest
          inFlight := run.inFlight ++ [⟨response, some request⟩]
          verified := if success = true then run.verified ++ [request] else run.verified }
      else run
  | _, _ => run

/-- The upstream sends a frame that is no bind response. -/
def send (run : BindRun) (frame : Bytes) : BindRun :=
  match connector.bindResponse frame with
  | .ok (some _) => run
  | _ => { run with inFlight := run.inFlight ++ [⟨frame, none⟩] }

/-- The upstream direction reads the next upstream frame. -/
def deliver (run : BindRun) : BindRun :=
  match run.inFlight with
  | [] => run
  | upstream :: rest =>
      match resolvePendingBind connector run.state upstream.frame with
      | .error _ => { run with closed := true }
      | .ok state => { run with state, inFlight := rest }

def step (run : BindRun) (label : BindLabel) : BindRun :=
  if run.closed = true then run
  else
    match label with
    | .read frame => if run.current.isSome then run else run.read connector frame
    | .finish decision => run.finish connector decision
    | .answer response => run.answer connector response
    | .send frame => run.send connector frame
    | .deliver => run.deliver connector

/-- The bind requests whose response the proxy has yet to see, the oldest first. -/
def unresolved (run : BindRun) : List Bytes :=
  run.inFlight.filterMap Upstream.request ++ run.unanswered ++
    run.current.toList.filter fun frame => (bindId connector frame).isSome

/-- The oldest unresolved bind request with a message ID. -/
def oldest (run : BindRun) (messageId : Nat) : Option Bytes :=
  (run.unresolved connector).find? fun request => decide (bindId connector request = some messageId)

/-- A claim is staged only if the oldest unresolved request with its ID, if there is one,
    claims the same name. -/
def ClaimsInOrder (run : BindRun) : BindLabel → Prop
  | .read frame => run.closed = false → run.current = none → ∀ messageId dn,
      connector.bindRequest frame = .ok (some (messageId, dn)) →
      ∀ older ∈ run.oldest connector messageId, claimed connector older = some dn
  | _ => True

/-- The frame answers the request it carries, and a success was reported for it. -/
def Answers (verified : List Bytes) (upstream : Upstream) : Prop :=
  match upstream.request with
  | none => ∀ result, connector.bindResponse upstream.frame ≠ .ok (some result)
  | some request => ∃ messageId success, connector.bindResponse upstream.frame = .ok (some (messageId, success)) ∧
      bindId connector request = some messageId ∧ (success = true → request ∈ verified)

/-- A bound identity was verified, and each staged claim is that of the oldest
    unresolved request with its ID. -/
structure Sound (run : BindRun) : Prop where
  bound : ∀ dn, run.state.identity = Identity.fromBindDn dn → ∃ request ∈ run.verified,
    claimed connector request = some dn
  staged : ∀ messageId dn, run.state.pending.lookup messageId = some dn → ∃ request,
    run.oldest connector messageId = some request ∧ claimed connector request = some dn
  answers : ∀ upstream ∈ run.inFlight, Answers connector run.verified upstream

section Frames

variable {connector}

theorem decode_of_bindRequest {frame : Bytes} {messageId : Nat} {dn : String}
    (claims : connector.bindRequest frame = .ok (some (messageId, dn))) :
    bindId connector frame = some messageId ∧ claimed connector frame = some dn := by
  simp only [LdapConnector.bindRequest, LdapConnector.decodeMessage] at claims
  cases decoded : connector.ber.decode frame with
  | none =>
      rw [decoded] at claims
      cases claims
  | some message =>
      rw [decoded] at claims
      have claim : connector.claim message = some (messageId, dn) := Except.ok.inj claims
      refine ⟨?_, ?_⟩
      · obtain ⟨id, operation⟩ := message
        simp only [LdapConnector.claim] at claim
        split at claim
        · split at claim
          · cases claim
          · simp only [Option.some.injEq, Prod.mk.injEq] at claim
            simp only [bindId, decoded, claim.1]
        · cases claim
      · simp only [claimed, decoded, Option.bind_some, claim, Option.map_some]

/-- Policies have no say in a bind request. -/
theorem forwards_of_bindId {frame : Bytes} (bind : (bindId connector frame).isSome = true) (decision : Decision) :
    forwards connector frame decision = .ok true := by
  simp only [bindId] at bind
  split at bind
  · rename_i messageId request decoded
    simp only [forwards, LdapConnector.decode, LdapConnector.decodeMessage, decoded]
    rfl
  · cases bind

end Frames

namespace Sound

variable {connector} {run : BindRun}

/-- What keeps the unresolved requests and the verified ones keeps the invariant. -/
theorem of_same {next : BindRun} (sound : run.Sound connector) (state : next.state = run.state)
    (unresolved : next.unresolved connector = run.unresolved connector)
    (verified : ∀ request ∈ run.verified, request ∈ next.verified)
    (answers : ∀ upstream ∈ next.inFlight, Answers connector next.verified upstream) : next.Sound connector := by
  refine ⟨?_, ?_, answers⟩
  · intro dn same
    rw [state] at same
    obtain ⟨request, member, claims⟩ := sound.bound dn same
    exact ⟨request, verified request member, claims⟩
  · intro messageId dn staged
    rw [state] at staged
    simp only [oldest, unresolved]
    exact sound.staged messageId dn staged

theorem read (sound : run.Sound connector) {frame : Bytes} (idle : run.current = none) (going : run.closed = false)
    (inOrder : run.ClaimsInOrder connector (.read frame)) : (run.read connector frame).Sound connector := by
  simp only [BindRun.read]
  cases claims : connector.bindRequest frame with
  | error text => exact ⟨sound.bound, sound.staged, sound.answers⟩
  | ok claim =>
      have before : ∀ messageId request, run.oldest connector messageId = some request →
          ({ run with state := run.state.stage claim, current := some frame } : BindRun).oldest connector messageId =
            some request := by
        intro messageId request found
        simp only [oldest, unresolved, idle, Option.toList_none, List.filter_nil, List.append_nil] at found
        simp only [oldest, unresolved]
        rw [List.find?_append, found]
        rfl
      cases claim with
      | none =>
          refine ⟨sound.bound, ?_, sound.answers⟩
          intro messageId dn staged
          obtain ⟨request, found, same⟩ := sound.staged messageId dn staged
          exact ⟨request, before messageId request found, same⟩
      | some claim =>
          obtain ⟨messageId, dn⟩ := claim
          obtain ⟨mine, name⟩ := decode_of_bindRequest claims
          refine ⟨sound.bound, ?_, sound.answers⟩
          intro id other staged
          rcases lookup_stagePendingBind staged with ⟨rfl, rfl⟩ | ⟨-, old⟩
          · cases older : run.oldest connector id with
            | some request =>
                exact ⟨request, before id request older, inOrder going idle id other claims request older⟩
            | none =>
                refine ⟨frame, ?_, name⟩
                simp only [oldest, unresolved, idle, Option.toList_none, List.filter_nil, List.append_nil] at older
                simp only [oldest, unresolved]
                rw [List.find?_append, older]
                simp only [Option.toList_some, mine, Option.isSome_some, List.filter_cons_of_pos, List.filter_nil,
                  Option.none_or, decide_true, List.find?_cons_of_pos]
          · obtain ⟨request, found, same⟩ := sound.staged id other old
            exact ⟨request, before id request found, same⟩

theorem finish (sound : run.Sound connector) (decision : Decision) : (run.finish connector decision).Sound connector := by
  cases current : run.current with
  | none =>
      simp only [BindRun.finish, current]
      exact sound
  | some frame =>
      cases bind : (bindId connector frame).isSome with
      | true =>
          simp only [BindRun.finish, current, forwards_of_bindId bind, bind, if_true]
          refine sound.of_same rfl ?_ (fun _ member => member) sound.answers
          simp only [unresolved, current, bind, Option.toList_none, Option.toList_some, List.filter_nil,
            List.filter_cons_of_pos, List.append_nil, List.append_assoc]
      | false =>
          have same : ({ run with current := none } : BindRun).unresolved connector = run.unresolved connector := by
            simp only [unresolved, current, bind, Option.toList_none, Option.toList_some, List.filter_nil,
              Bool.false_eq_true, not_false_eq_true, List.filter_cons_of_neg]
          have idle : ({ run with current := none } : BindRun).Sound connector :=
            sound.of_same rfl same (fun _ member => member) sound.answers
          cases forwarded : forwards connector frame decision with
          | error text =>
              simp only [BindRun.finish, current, forwarded]
              refine sound.of_same rfl ?_ (fun _ member => member) sound.answers
              simp only [unresolved, current]
          | ok passed =>
              cases passed <;> simp only [BindRun.finish, current, forwarded, bind, Bool.false_eq_true, if_false] <;>
                exact idle

theorem answer (sound : run.Sound connector) (response : Bytes) : (run.answer connector response).Sound connector := by
  simp only [BindRun.answer]
  split
  · rename_i request rest messageId success unanswered responds
    split
    · rename_i mine
      refine sound.of_same rfl ?_ ?_ ?_
      · simp only [unresolved, unanswered, List.filterMap_append, List.append_assoc, List.cons_append]
        rfl
      · intro other member
        split
        · exact List.mem_append_left _ member
        · exact member
      · intro upstream member
        rcases List.mem_append.mp member with old | new
        · have before := sound.answers upstream old
          simp only [Answers] at before ⊢
          split
          · rename_i nothing
            simpa only [nothing] using before
          · rename_i older there
            simp only [there] at before
            obtain ⟨id, flag, result, same, kept⟩ := before
            refine ⟨id, flag, result, same, fun reported => ?_⟩
            split
            · exact List.mem_append_left _ (kept reported)
            · exact kept reported
        · rw [List.mem_singleton.mp new]
          refine ⟨messageId, success, responds, mine, fun reported => ?_⟩
          rw [if_pos reported]
          exact List.mem_append_right _ List.mem_cons_self
    · exact sound
  · exact sound

theorem send (sound : run.Sound connector) (frame : Bytes) : (run.send connector frame).Sound connector := by
  simp only [BindRun.send]
  split
  · exact sound
  · rename_i other
    refine sound.of_same rfl ?_ (fun _ member => member) ?_
    · simp only [unresolved, List.filterMap_append, List.filterMap_cons_none, List.filterMap_nil, List.append_nil]
    · intro upstream member
      rcases List.mem_append.mp member with old | new
      · exact sound.answers upstream old
      · rw [List.mem_singleton.mp new]
        exact fun result responds => other result responds

/-- The claim a response promotes is that of the request it answers. -/
theorem resolve (sound : run.Sound connector) {upstream : Upstream} {rest : List Upstream} {request : Bytes}
    (next : run.inFlight = upstream :: rest) (answered : upstream.request = some request) {messageId : Nat}
    {success : Bool} (mine : bindId connector request = some messageId)
    (reported : success = true → request ∈ run.verified) :
    ({ run with state := run.state.resolve messageId success, inFlight := rest } : BindRun).Sound connector := by
  have others : ∀ upstream ∈ rest, Answers connector run.verified upstream := by
    intro other member
    exact sound.answers other (next ▸ List.mem_cons_of_mem _ member)
  have queue : run.unresolved connector =
      request :: ({ run with state := run.state.resolve messageId success, inFlight := rest } :
        BindRun).unresolved connector := by
    simp only [unresolved, next, List.filterMap_cons_some answered, List.cons_append]
  have first : run.oldest connector messageId = some request := by
    rw [oldest, queue, List.find?_cons_of_pos]
    exact decide_eq_true mine
  have later : ∀ id, id ≠ messageId → run.oldest connector id =
      ({ run with state := run.state.resolve messageId success, inFlight := rest } : BindRun).oldest connector id := by
    intro id other
    rw [oldest, queue, List.find?_cons_of_neg, oldest]
    simp only [mine, Option.some.injEq, decide_eq_true_eq]
    exact Ne.symm other
  cases found : run.state.pending.lookup messageId with
  | none =>
      have same : run.state.resolve messageId success = run.state := by
        simp only [BindState.resolve, found]
      refine ⟨?_, ?_, others⟩
      · simp only [same]
        exact sound.bound
      · intro id dn staged
        simp only [same] at staged
        have other : id ≠ messageId := by
          rintro rfl
          rw [found] at staged
          cases staged
        rw [← later id other]
        exact sound.staged id dn staged
  | some dn =>
      obtain ⟨claimant, oldest, claims⟩ := sound.staged messageId dn found
      obtain rfl : request = claimant := Option.some.inj (first.symm.trans oldest)
      refine ⟨?_, ?_, others⟩
      · intro name same
        simp only [BindState.resolve, found] at same
        cases success with
        | false => exact sound.bound name same
        | true =>
            have equal : dn = name := Identity.fromBindDn_injective same
            exact ⟨request, reported rfl, equal ▸ claims⟩
      · intro id name staged
        simp only [BindState.resolve, found, lookup_erase_ite] at staged
        split at staged
        · cases staged
        · rename_i other
          rw [← later id other]
          exact sound.staged id name staged

theorem deliver (sound : run.Sound connector) : (run.deliver connector).Sound connector := by
  simp only [BindRun.deliver]
  split
  · exact sound
  · rename_i upstream rest next
    have here := sound.answers upstream (next ▸ List.mem_cons_self)
    simp only [Answers] at here
    cases answered : upstream.request with
    | none =>
        simp only [answered] at here
        cases responds : connector.bindResponse upstream.frame with
        | error text =>
            simp only [resolvePendingBind_eq, responds]
            exact ⟨sound.bound, sound.staged, sound.answers⟩
        | ok result =>
            cases result with
            | some result => exact absurd responds (here result)
            | none =>
                simp only [resolvePendingBind_eq, responds]
                refine sound.of_same rfl ?_ (fun _ member => member) ?_
                · simp only [unresolved, next, List.filterMap_cons_none answered]
                · exact fun other member => sound.answers other (next ▸ List.mem_cons_of_mem _ member)
    | some request =>
        simp only [answered] at here
        obtain ⟨messageId, success, responds, mine, reported⟩ := here
        simp only [resolvePendingBind_eq, responds]
        exact sound.resolve next answered mine reported

theorem step (sound : run.Sound connector) {label : BindLabel} (inOrder : run.ClaimsInOrder connector label) :
    (run.step connector label).Sound connector := by
  cases going : run.closed with
  | true =>
      simp only [BindRun.step, going, if_true]
      exact sound
  | false =>
      cases label with
      | read frame =>
          cases idle : run.current with
          | none =>
              simp only [BindRun.step, going, Bool.false_eq_true, if_false, idle, Option.isSome_none]
              exact sound.read idle going inOrder
          | some busy =>
              simp only [BindRun.step, going, Bool.false_eq_true, if_false, idle, Option.isSome_some, if_true]
              exact sound
      | finish decision =>
          simp only [BindRun.step, going, Bool.false_eq_true, if_false]
          exact sound.finish decision
      | answer response =>
          simp only [BindRun.step, going, Bool.false_eq_true, if_false]
          exact sound.answer response
      | send frame =>
          simp only [BindRun.step, going, Bool.false_eq_true, if_false]
          exact sound.send frame
      | deliver =>
          simp only [BindRun.step, going, Bool.false_eq_true, if_false]
          exact sound.deliver

end Sound

/-- A new connection from a peer. -/
def start (ip : String) : BindRun := ⟨.start ip, none, [], [], [], false⟩

/-- In every run whose claims are staged in order, a bound identity is one that the
    upstream verified: it reported success for a simple bind with a password, under
    that name. -/
theorem bound_identity_verified (connector : LdapConnector) (ip : String) (labels : List BindLabel)
    (inOrder : EachStep (step connector) (ClaimsInOrder connector) (start ip) labels) (dn : String)
    (bound : (labels.foldl (step connector) (start ip)).state.identity = Identity.fromBindDn dn) :
    ∃ request ∈ (labels.foldl (step connector) (start ip)).verified, claimed connector request = some dn := by
  have fresh : (start ip).Sound connector := by
    refine ⟨?_, ?_, ?_⟩
    · intro name same
      exact absurd same.symm (Identity.fromBindDn_ne_fromPeerAddr name ip)
    · intro messageId name staged
      cases staged
    · intro upstream member
      cases member
  exact (inOrder.invariant fresh fun _ _ sound here => sound.step here).bound dn bound

/-- An anonymous bind, a simple bind of `cn=v`, and the response of a successful bind, all
    under message ID 1. -/
def anonymousBind : Bytes := [0x30, 0x0c, 2, 1, 1, 0x60, 7, 2, 1, 3, 4, 0, 0x80, 0]

def simpleBind : Bytes := [0x30, 0x11, 2, 1, 1, 0x60, 0x0c, 2, 1, 3, 4, 4, 0x63, 0x6e, 0x3d, 0x76, 0x80, 1, 0x78]

def bindSuccess : Bytes := [0x30, 0x0c, 2, 1, 1, 0x61, 7, 0x0a, 1, 0, 4, 0, 4, 0]

/-- A codec that knows these three frames, with an ASCII reading of names. -/
def sampleConnector : LdapConnector where
  ber :=
    { decode := fun frame =>
        if frame = anonymousBind then some ⟨1, .bindRequest ⟨"", .simple []⟩⟩
        else if frame = simpleBind then some ⟨1, .bindRequest ⟨"cn=v", .simple [0x78]⟩⟩
        else if frame = bindSuccess then some ⟨1, .bindResponse ⟨.success, "", ""⟩⟩
        else none
      encode := fun _ => none
      decodePasswdModify := fun _ => none }
  unicode := ⟨fun char => [char], fun _ => false, fun _ => false⟩
  dnHash := fun _ => 0

/-- A simple bind, answered before the next one. -/
def plainRun : List BindLabel := [.read simpleBind, .finish .allow, .answer bindSuccess, .deliver]

theorem bound_identity_verified_plain :
    (plainRun.foldl (step sampleConnector) (start "10.0.0.1")).state.identity = Identity.fromBindDn "cn=v" ∧
      ∃ request ∈ (plainRun.foldl (step sampleConnector) (start "10.0.0.1")).verified,
        claimed sampleConnector request = some "cn=v" := by
  have bound : (plainRun.foldl (step sampleConnector) (start "10.0.0.1")).state.identity =
      Identity.fromBindDn "cn=v" := by decide +kernel
  refine ⟨bound, bound_identity_verified sampleConnector "10.0.0.1" plainRun ?_ "cn=v" bound⟩
  simp only [plainRun, eachStep_cons]
  refine ⟨?_, trivial, trivial, trivial, eachStep_nil⟩
  intro _ _ messageId dn _ older found
  cases found

/-- An anonymous bind is still open when the same ID is used to claim a name. -/
def overtakingRun : List BindLabel :=
  [.read anonymousBind, .finish .allow, .read simpleBind, .finish .allow, .answer bindSuccess, .deliver]

/-- The success of the anonymous bind promotes the claim, which the upstream never verified. -/
theorem overtakingRun_promotes :
    (overtakingRun.foldl (step sampleConnector) (start "10.0.0.1")).state.identity = Identity.fromBindDn "cn=v" ∧
      (overtakingRun.foldl (step sampleConnector) (start "10.0.0.1")).verified = [anonymousBind] ∧
      ¬ ∃ request ∈ (overtakingRun.foldl (step sampleConnector) (start "10.0.0.1")).verified,
        claimed sampleConnector request = some "cn=v" := by
  decide +kernel

end BindRun

end AiProtect
