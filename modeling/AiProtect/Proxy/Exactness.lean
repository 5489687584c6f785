import AiProtect.Proxy.Lifetimes
import AiProtect.Proxy.Restart

/-! # Limits that are exact

A policy without a store refuses a request if its limits say so, and only then: what counts
is what it has let through itself, under the same key and within the window, on whatever
connection. Other keys, refused requests, reloads and the state of any connection do not
matter. This is the other half of the bound on what reaches the upstream.
-/

namespace AiProtect

open SlidingWindow Runs

/-- The blast radii let through under a key that are still in the window at `now`. -/
def spent (asks : List Ask) (width : Nat) (key : Identity) (now : Int) : Nat :=
  ((asks.filter fun ask => ask.key = key ∧ ask.decision = .allow ∧ now ≤ ask.time + width).map Ask.radius).sum

/-- Each answer is the one that the limits give, after the answers before it. -/
def Due (config : ThresholdConfig) (asks : List Ask) : Prop :=
  ∀ before ask after, asks = before ++ ask :: after → (ask.decision = .allow ↔
    ask.radius ≤ config.maxPerRequest ∧
      spent before config.window ask.key ask.time + ask.radius ≤ config.maxPerWindow)

theorem Due.snoc {config : ThresholdConfig} {asks : List Ask} (due : Due config asks) {ask : Ask}
    (last : ask.decision = .allow ↔ ask.radius ≤ config.maxPerRequest ∧
      spent asks config.window ask.key ask.time + ask.radius ≤ config.maxPerWindow) :
    Due config (asks ++ [ask]) := by
  intro before other after split
  induction after using List.reverseRecOn with
  | nil =>
      obtain ⟨rfl, same⟩ := List.append_inj' split rfl
      rw [List.cons.injEq] at same
      rw [← same.1]
      exact last
  | append_singleton after end_ _ =>
      have grouped : before ++ other :: (after ++ [end_]) = (before ++ other :: after) ++ [end_] := by
        rw [List.append_assoc, List.cons_append]
      rw [grouped] at split
      exact due before other after (List.append_inj' split rfl).1

namespace Slot

theorem spent_eq (slot : Slot) (width : Nat) (key : Identity) (now : Int) :
    spent slot.asks width key now = sumWhere (recent (width : Int) now) (slot.admitted key) := by
  simp only [spent, sumWhere, admitted, List.filter_map, List.map_map, List.filter_filter]
  refine congrArg List.sum (congrArg (List.map Ask.radius) (List.filter_congr fun ask _ => ?_))
  simp only [Function.comp_apply, recent, ← Bool.decide_and, decide_eq_decide]
  constructor
  · rintro ⟨mine, allowed, lately⟩
    exact ⟨lately, mine, allowed⟩
  · rintro ⟨lately, mine, allowed⟩
    exact ⟨mine, allowed, lately⟩

/-- The windows of a policy that nothing is merged into are what it has let through. -/
structure Exact (slot : Slot) : Prop where
  alone : slot.policy.state = none
  idle : slot.syncing = none
  sorted : ∀ id, (slot.policy.history.window id).Pairwise (· ≤ ·)
  past : ∀ id, ∀ time ∈ slot.policy.history.window id, (time : WithBot Int) ≤ slot.clock
  agrees : ∀ id (now : Int), slot.clock ≤ (now : WithBot Int) →
    (slot.policy.history.window id).filter (recent (slot.policy.config.window : Int) now) =
      (units (slot.admitted id)).filter (recent (slot.policy.config.window : Int) now)
  due : Due slot.policy.config slot.asks

namespace Exact

variable {slot : Slot}

/-- The window that a call measures is what has been spent. -/
theorem length_measured (exact : slot.Exact) (key : Identity) {now : Int} (reached : slot.clock ≤ (now : WithBot Int)) :
    (slot.policy.measured key now).length = spent slot.asks slot.policy.config.window key now := by
  rw [ThresholdPolicy.measured_of_sorted (exact.sorted key), exact.agrees key now reached, length_filter_units,
    spent_eq]

/-- One window is cut to what was measured of it and gets some new units. -/
theorem refill (exact : slot.Exact) (key : Identity) {now : Int} (reached : slot.clock ≤ (now : WithBot Int))
    (count : Nat) {after : Slot} (config : after.policy.config = slot.policy.config)
    (alone : after.policy.state = none) (idle : after.syncing = none) (clock : after.clock = (now : WithBot Int))
    (windows : ∀ id, after.policy.history.window id =
      if id = key then slot.policy.measured key now ++ List.replicate count now else slot.policy.history.window id)
    (logs : ∀ id, units (after.admitted id) =
      if id = key then units (slot.admitted key) ++ List.replicate count now else units (slot.admitted id))
    (due : Due slot.policy.config after.asks) : after.Exact := by
  have measured := ThresholdPolicy.measured_of_sorted (exact.sorted key) now
  have past : ∀ id, ∀ time ∈ slot.policy.history.window id, time ≤ now :=
    fun id time member => WithBot.coe_le_coe.mp ((exact.past id time member).trans reached)
  have pastMeasured : ∀ time ∈ slot.policy.measured key now, time ≤ now := by
    rw [measured]
    exact fun time member => past key time (List.mem_of_mem_filter member)
  refine ⟨alone, idle, ?_, ?_, ?_, config ▸ due⟩
  · intro id
    rw [windows]
    split
    · refine sorted_admitted ?_ pastMeasured count
      rw [measured]
      exact (exact.sorted key).filter _
    · exact exact.sorted id
  · intro id time member
    rw [windows] at member
    rw [clock]
    refine WithBot.coe_le_coe.mpr ?_
    split at member
    · exact past_admitted pastMeasured count time member
    · exact past id time member
  · intro id later onward
    rw [clock] at onward
    rw [windows, logs, config]
    split
    · rw [List.filter_append, List.filter_append, measured, filter_recent_recent (WithBot.coe_le_coe.mp onward),
        exact.agrees key later (reached.trans onward)]
    · exact exact.agrees id later (reached.trans onward)

/-- A question keeps a policy exact, as long as it is calm. -/
theorem evaluate (exact : slot.Exact) (call : Nat) {action : Action} {ctx : PolicyContext} {now : Int}
    (calm : slot.policy.measures action = true → slot.CalmAsk action ctx now) :
    (slot.evaluate call action ctx now).2.Exact := by
  have total : slot.clock ≤ (now : WithBot Int) →
      (slot.policy.measured (slot.policy.config.historyKey ctx) now).length =
        spent slot.asks slot.policy.config.window (slot.policy.config.historyKey ctx) now :=
    exact.length_measured (slot.policy.config.historyKey ctx)
  simp only [Slot.evaluate, ThresholdPolicy.measures] at calm ⊢
  cases slot.policy.evaluate_outcome action ctx now with
  | bypassed outside result =>
      simp only [result, outside, Bool.false_eq_true, Bool.false_and, if_false]
      exact exact
  | oversized covered large result =>
      have unread : decide (action.blastRadius ≤ slot.policy.config.maxPerRequest) = false :=
        decide_eq_false (by omega)
      simp only [result, covered, unread, Bool.and_false, Bool.false_eq_true, if_false, if_true]
      refine ⟨exact.alone, exact.idle, exact.sorted, exact.past, fun id later onward => ?_, exact.due.snoc ?_⟩
      · rw [admitted_refused rfl rfl]
        exact exact.agrees id later onward
      · exact iff_of_false (fun same => by cases same) fun both => absurd both.1 (Nat.not_le.mpr large)
  | overBudget covered small full result =>
      simp only [covered, decide_eq_true small, Bool.and_true, forall_const] at calm
      rw [addUsize_of_fits calm.fits, total calm.clock] at full
      simp only [result, covered, decide_eq_true small, Bool.and_true, if_true]
      refine exact.refill (slot.policy.config.historyKey ctx) calm.clock 0 rfl exact.alone exact.idle rfl ?_ ?_ ?_
      · intro id
        rw [ThresholdPolicy.window_prepare _ _ calm.kept, List.replicate_zero, List.append_nil]
      · intro id
        rw [admitted_refused rfl rfl, List.replicate_zero, List.append_nil]
        split
        · rename_i same
          rw [same]
        · rfl
      · refine exact.due.snoc (iff_of_false (fun same => by cases same) fun both => ?_)
        exact absurd both.2 (Nat.not_le.mpr full)
  | admitted covered small fits result =>
      simp only [covered, decide_eq_true small, Bool.and_true, forall_const] at calm
      rw [addUsize_of_fits calm.fits, total calm.clock] at fits
      simp only [result, covered, decide_eq_true small, Bool.and_true, if_true]
      refine exact.refill (slot.policy.config.historyKey ctx) calm.clock action.blastRadius rfl ?_ exact.idle rfl
        ?_ ?_ ?_
      · rw [ThresholdPolicy.enqueue, exact.alone, Option.map_none]
      · intro id
        rw [History.window_recordAdmitted (ThresholdPolicy.get_prepare_isSome _ _ _),
          ThresholdPolicy.window_prepare_self, ThresholdPolicy.window_prepare _ _ calm.kept]
        split <;> rfl
      · intro id
        by_cases mine : id = slot.policy.config.historyKey ctx
        · simp [Slot.admitted, mine]
        · simp [Slot.admitted, mine, Ne.symm mine]
      · exact exact.due.snoc (iff_of_true rfl ⟨small, fits⟩)

end Exact

/-- A policy that has no store begins with nothing. -/
theorem exact_built {policy : ThresholdPolicy} (made : ∃ config db, policy = .new config db)
    (alone : policy.state = none) : (built policy).Exact := by
  obtain ⟨config, db, rfl⟩ := made
  cases db with
  | absent =>
      have empty : ∀ id, (built (.new config .absent)).policy.history.window id = [] := by
        intro id
        simp only [built, ThresholdPolicy.new, History.window, History.get_empty, Option.getD_none]
      refine ⟨rfl, rfl, ?_, ?_, ?_, ?_⟩
      · intro id
        rw [empty]
        exact List.Pairwise.nil
      · intro id time member
        rw [empty] at member
        cases member
      · intro id now _
        rw [empty]
        rfl
      · intro before ask after split
        cases before <;> cases split
  | unread | loaded _ _ _ => cases alone

end Slot

namespace Process

variable {connector : LdapConnector} {parse : String → Option (List PolicyEntry)}

/-- The policies of the entries have been built like those of a reload. -/
def Configured (configs : List (String × List ThresholdPolicy)) : Prop :=
  ∀ entry ∈ configs, ∀ policy ∈ entry.2, ∃ config db, policy = ThresholdPolicy.new config db

def Exact (process : Process) : Prop := ∀ slot ∈ process.slots, slot.policy.state = none → slot.Exact

namespace Exact

variable {process after : Process}

theorem build (exact : process.Exact) {policies : List ThresholdPolicy}
    (made : ∀ policy ∈ policies, ∃ config db, policy = ThresholdPolicy.new config db)
    (slots : after.slots = process.slots ++ policies.map Slot.built) : after.Exact := by
  intro slot member alone
  rw [slots] at member
  rcases List.mem_append.mp member with old | new
  · exact exact slot old alone
  · obtain ⟨policy, listed, rfl⟩ := List.mem_map.mp new
    exact Slot.exact_built (made policy listed) alone

theorem replace (exact : process.Exact) {handle : Nat} {slot next : Slot}
    (there : process.slots[handle]? = some slot) (slots : after.slots = process.slots.set handle next)
    (store : next.policy.state.isSome = slot.policy.state.isSome) (kept : slot.Exact → next.Exact) : after.Exact := by
  intro other member alone
  rw [slots] at member
  rcases List.mem_or_eq_of_mem_set member with old | rfl
  · exact exact other old alone
  · refine kept (exact slot (List.mem_of_getElem? there) ?_)
    rw [alone, Option.isSome_none] at store
    exact Option.isSome_eq_false_iff.mp store.symm |> Option.isNone_iff_eq_none.mp

end Exact

/-- The policies of a file that has loaded have been built. -/
theorem made_of_loaded {path : String} {contents : Option String} {db : Nat → ThresholdPolicy.StateDb}
    {policies : List ThresholdPolicy} (loaded : loadPolicies parse path contents db = .ok policies) :
    ∀ policy ∈ policies, ∃ config db, policy = ThresholdPolicy.new config db := by
  intro policy member
  rcases loadPolicies_eq path contents db with ⟨-, error, failed⟩ | ⟨entries, -, ok⟩
  · rw [failed] at loaded
    cases loaded
  · rw [ok] at loaded
    cases loaded
    obtain ⟨index, inside, rfl⟩ := List.mem_mapIdx.mp member
    cases entries[index] with
    | threshold config stateDb => exact ⟨config, _, rfl⟩

theorem Change.exact {process after : Process} {label : ProcessLabel}
    (change : Change connector parse process label after) (calm : process.Calm label) (exact : process.Exact) :
    after.Exact := by
  cases change with
  | idle | turned _ _ | exited _ | closed _ _ | accepted _ _ | dropped _ _ _ _ | spoke _ _ _ _ _ _
  | opened _ _ _ _ _ | returned _ _ _ | logged _ _ _ _ _ _ | unanswerable _ _ _ _ | taskEnded _ _ _ => exact exact
  | replaced _ _ loaded _ | discarded _ _ loaded _ => exact exact.build (made_of_loaded loaded) rfl
  | @passed k _ _ _ _ _ found undecided asked there verdict =>
      refine exact.replace there rfl (Slot.evaluate_kept verdict).2 fun before => ?_
      have kept := before.evaluate k (calm _ found undecided _ asked _ there)
      rw [verdict] at kept
      exact kept
  | @blocked k _ _ _ _ _ _ found undecided asked there verdict =>
      refine exact.replace there rfl (Slot.evaluate_kept verdict).2 fun before => ?_
      have kept := before.evaluate k (calm _ found undecided _ asked _ there)
      rw [verdict] at kept
      exact kept
  | @drained handle anchor slot there _ _ _ =>
      have store : (slot.drain anchor).policy.state.isSome = slot.policy.state.isSome := by
        simp only [Slot.drain, ThresholdPolicy.drain]
        split
        · split
          · rfl
          · rename_i found
            rw [found]
            rfl
        · rfl
      refine exact.replace there rfl store fun before => ?_
      rw [Slot.drain, before.alone]
      exact before
  | @failed handle slot there syncing =>
      refine exact.replace there rfl rfl fun before => ?_
      rw [before.idle] at syncing
      cases syncing
  | @merged handle rows now slot there syncing =>
      refine exact.replace there rfl (Slot.merge_kept syncing rows now).2 fun before => ?_
      rw [before.idle] at syncing
      cases syncing

theorem exact_start {configs : List (String × List ThresholdPolicy)} (made : Configured configs) :
    (start configs).Exact := by
  refine List.foldlRecOn configs addEntry (fun _ member => absurd member List.not_mem_nil) ?_
  intro process exact config member
  exact exact.build (made config member) rfl

variable (connector parse) in
/-- Over every calm run, a policy without a store has let a request through exactly if that
    kept it within its limits, by what it had let through before under the same key; so a
    rejection that such a policy is responsible for has been due. -/
theorem rejections_are_due {configs : List (String × List ThresholdPolicy)} (made : Configured configs)
    {labels : List ProcessLabel} (calm : EachStep (step connector parse) Calm (start configs) labels) :
    (∀ slot ∈ (labels.foldl (step connector parse) (start configs)).slots, slot.policy.state = none →
        Due slot.policy.config slot.asks) ∧
      ∀ connection ∈ (labels.foldl (step connector parse) (start configs)).connections,
        ∀ sent ∈ connection.toClient, ∀ k, sent.call = some k → ∃ handle ∈ connection.policies, ∃ slot,
          (labels.foldl (step connector parse) (start configs)).slots[handle]? = some slot ∧
          ∃ before ask after, slot.asks = before ++ ask :: after ∧ ask.call = k ∧
            (slot.policy.state = none → slot.policy.config.maxPerRequest < ask.radius ∨
              slot.policy.config.maxPerWindow <
                spent before slot.policy.config.window ask.key ask.time + ask.radius) := by
  have sound := always_sound connector parse configs labels labels (List.prefix_refl labels)
  have exact := calm.invariant (exact_start made)
    fun process label here keeps => (process.change label).exact keeps here
  generalize labels.foldl (step connector parse) (start configs) = process at sound exact ⊢
  refine ⟨fun slot member alone => (exact slot member alone).due, ?_⟩
  intro connection member sent written k sentBy
  obtain ⟨index, found⟩ := List.getElem?_of_mem member
  obtain ⟨call, reason, handle, slot, -, -, -, listed, there, answered⟩ :=
    (sound.mediated found).refused sent written k sentBy
  refine ⟨handle, listed, slot, there, ?_⟩
  rcases answered with ⟨-, time, only⟩ | ⟨-, -, same⟩
  · have asked : (⟨k, slot.policy.config.historyKey call.ctx, time, call.action.blastRadius, .block reason⟩ : Ask) ∈
        slot.asks := List.mem_of_mem_filter (by rw [← Slot.asksOf, only]; exact List.mem_singleton_self _)
    obtain ⟨before, after, split⟩ := List.append_of_mem asked
    refine ⟨before, _, after, split, rfl, fun alone => ?_⟩
    have due := (exact slot (List.mem_of_getElem? there) alone).due before _ after split
    by_contra within
    rw [not_or, Nat.not_lt, Nat.not_lt] at within
    cases due.mpr within
  · cases same

/-- The answer to a request that is over the limit for a single one. -/
def dueRejection : Bytes :=
  [0x30, 0x36, 2, 1, 5, 0x6b, 0x31, 0x0a, 1, 0x35, 4, 0, 4, 0x2a] ++
    asBytes "blast radius 1 exceeds per-request limit 0"

def dueConnector : LdapConnector where
  ber :=
    { decode := Relay.deleteConnector.ber.decode
      encode := fun message =>
        if message = ⟨5, .delResponse (LdapConnector.refusal "blast radius 1 exceeds per-request limit 0")⟩ then
          some dueRejection
        else none
      decodePasswdModify := fun _ => none }
  unicode := Relay.deleteConnector.unicode
  dnHash := fun _ => 0

/-- A request comes to an entry whose policy lets nothing through. -/
def refusals : List ProcessLabel := [.accept 0 "10.0.0.1", .receive 0 Relay.deleteFrame, .advance 0 5, .log 0]

def refusedProcess : Process :=
  refusals.foldl (step dueConnector twoFiles) (start [("ldap.toml", [.new closedConfig .absent])])

theorem refusal_is_due : ∃ connection slot, refusedProcess.connections[0]? = some connection ∧
    connection.toClient = [⟨dueRejection, some 0⟩] ∧ refusedProcess.slots[0]? = some slot ∧
    ∃ before ask after, slot.asks = before ++ ask :: after ∧ ask.call = 0 ∧
      (closedConfig.maxPerRequest < ask.radius ∨
        closedConfig.maxPerWindow < spent before closedConfig.window ask.key ask.time + ask.radius) := by
  have made : Configured [("ldap.toml", [.new closedConfig .absent])] := by
    intro entry member policy listed
    rw [List.mem_singleton.mp member, List.mem_singleton] at listed
    exact ⟨closedConfig, .absent, listed⟩
  have calm : EachStep (step dueConnector twoFiles) Calm (start [("ldap.toml", [.new closedConfig .absent])])
      refusals := by
    simp only [refusals, eachStep_cons]
    exact ⟨trivial, trivial, by decide +kernel, trivial, eachStep_nil⟩
  obtain ⟨-, due⟩ := rejections_are_due dueConnector twoFiles made calm
  have there : refusedProcess.connections[0]? =
      some ⟨0, [0], .start "10.0.0.1", none, [], [⟨dueRejection, some 0⟩], false⟩ := rfl
  obtain ⟨handle, listed, slot, found, before, ask, after, split, call, reason⟩ :=
    due _ (List.mem_of_getElem? there) ⟨dueRejection, some 0⟩ (List.mem_singleton_self _) 0 rfl
  rw [List.mem_singleton.mp listed] at found
  have config : (refusedProcess.slots[0]?.map fun slot => (slot.policy.config, slot.policy.state)) =
      some (closedConfig, none) := by decide +kernel
  have config' : (refusedProcess.slots[0]?.map fun slot => (slot.policy.config, slot.policy.state)) =
      some (slot.policy.config, slot.policy.state) := congrArg (Option.map _) found
  rw [config, Option.some_inj, Prod.mk.injEq] at config'
  refine ⟨_, slot, there, rfl, found, before, ask, after, split, call, ?_⟩
  rw [config'.1]
  exact reason config'.2.symm

end Process

end AiProtect
