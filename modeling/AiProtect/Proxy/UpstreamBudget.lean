import AiProtect.Proxy.Mediation

/-! # What reaches the upstream servers

Each policy limits what it lets through. Over a whole run the process has many policies,
since every reload builds new ones, and many connections share each of them. This module
bounds what is written upstream, on all connections together, by the limits of each policy
that had a say in it.
-/

namespace AiProtect.Process

open Places Runs

variable {connector : LdapConnector} {parse : String → Option (List PolicyEntry)}

def outcome (process : Process) (k : Nat) : Option Decision := process.calls[k]?.bind Judgement.decision

/-- No policy's clock goes back, and no policy forgets a window that still counts. -/
def Calm (process : Process) : ProcessLabel → Prop
  | .advance k now => ∀ call ∈ process.calls[k]?, call.decision = none →
      ∀ handle ∈ call.policies[call.next]?, ∀ slot ∈ process.slots[handle]?,
        slot.policy.measures call.action = true → slot.CalmAsk call.action call.ctx now
  | .merge handle rows now => ∀ slot ∈ process.slots[handle]?, ∀ anchor ∈ slot.syncing, slot.CalmMerge anchor rows now
  | _ => True

instance (process : Process) (label : ProcessLabel) : Decidable (process.Calm label) :=
  match label with
  | .advance k _ => inferInstanceAs (Decidable (∀ call ∈ process.calls[k]?, _))
  | .merge handle _ _ => inferInstanceAs (Decidable (∀ slot ∈ process.slots[handle]?, _))
  | .hangup | .load _ _ | .exit | .close _ | .accept _ _ | .receive _ _ | .log _ | .respond _ _ | .stop _
  | .tick _ _ | .syncFailed _ => inferInstanceAs (Decidable True)

def Bounded (process : Process) : Prop := ∀ slot ∈ process.slots, slot.Bounded process.outcome

/-- A policy that has not been asked anything keeps within its limits, whatever it was
    built with. -/
theorem bounded_built (outcome : Nat → Option Decision) (policy : ThresholdPolicy) :
    (Slot.built policy).Bounded outcome := by
  refine ⟨?_, ?_, ?_, fun _ => SlidingWindow.Retains.nil, fun _ => SlidingWindow.Admitted.nil⟩
  all_goals
    intro ask member
    cases member

/-- Decisions stand. -/
theorem outcome_grows {process after : Process} (growth : Grows Judgement.Goes process.calls after.calls) {k : Nat}
    {decision : Decision} (decided : process.outcome k = some decision) : after.outcome k = some decision := by
  obtain ⟨call, found, made⟩ := Option.bind_eq_some_iff.mp decided
  obtain ⟨later, there, goes⟩ := growth k call found
  rw [outcome, there, Option.bind_some]
  exact goes.decided decision made

theorem outcome_set {process after : Process} {k : Nat} {call next : Judgement} (found : process.calls[k]? = some call)
    (calls : after.calls = process.calls.set k next) : after.outcome k = next.decision := by
  obtain ⟨inside, -⟩ := List.getElem?_eq_some_iff.mp found
  rw [outcome, calls, List.getElem?_set_self inside, Option.bind_some]

namespace Bounded

variable {process after : Process}

/-- One policy goes on, and the others stay as they are. -/
theorem replace (bounded : process.Bounded) (growth : Grows Judgement.Goes process.calls after.calls) {handle : Nat}
    {slot next : Slot} (slots : after.slots = process.slots.set handle next)
    (there : process.slots[handle]? = some slot)
    (kept : slot.Bounded after.outcome → next.Bounded after.outcome) : after.Bounded := by
  intro entry member
  rw [slots] at member
  rcases List.mem_or_eq_of_mem_set member with old | rfl
  · exact (bounded entry old).mono fun _ _ => outcome_grows growth
  · exact kept ((bounded slot (List.mem_of_getElem? there)).mono fun _ _ => outcome_grows growth)

theorem same (bounded : process.Bounded) (growth : Grows Judgement.Goes process.calls after.calls)
    (slots : after.slots = process.slots) : after.Bounded := by
  intro entry member
  rw [slots] at member
  exact (bounded entry member).mono fun _ _ => outcome_grows growth

theorem build (bounded : process.Bounded) (growth : Grows Judgement.Goes process.calls after.calls)
    {policies : List ThresholdPolicy} (slots : after.slots = process.slots ++ policies.map Slot.built) :
    after.Bounded := by
  intro entry member
  rw [slots] at member
  rcases List.mem_append.mp member with old | new
  · exact (bounded entry old).mono fun _ _ => outcome_grows growth
  · obtain ⟨policy, -, rfl⟩ := List.mem_map.mp new
    exact bounded_built _ policy

end Bounded

theorem Change.bounded {process after : Process} {label : ProcessLabel}
    (change : Change connector parse process label after) (calm : process.Calm label) (bounded : process.Bounded) :
    after.Bounded := by
  have growth := change.callsMove.grows
  cases change with
  | idle | turned _ _ | exited _ | closed _ _ | accepted _ _ | dropped _ _ _ _ | spoke _ _ _ _ _ _
  | opened _ _ _ _ _ | returned _ _ _ | logged _ _ _ _ _ _ | unanswerable _ _ _ _ | taskEnded _ _ _ =>
      exact bounded.same growth rfl
  | replaced _ _ _ _ | discarded _ _ _ _ => exact bounded.build growth rfl
  | @passed k _ _ _ _ _ found undecided asked there verdict =>
      refine bounded.replace growth rfl there fun before => ?_
      have kept := before.evaluate k (calm _ found undecided _ asked _ there)
      rw [verdict] at kept
      exact kept fun reason blocked => by cases blocked
  | @blocked k _ _ _ _ _ _ found undecided asked there verdict =>
      refine bounded.replace growth rfl there fun before => ?_
      have kept := before.evaluate k (calm _ found undecided _ asked _ there)
      rw [verdict] at kept
      refine kept fun reason blocked => ?_
      rw [outcome_set found rfl]
      exact congrArg some blocked
  | drained there _ _ _ =>
      refine bounded.replace growth rfl there fun before => ?_
      simp only [Slot.drain, ThresholdPolicy.drain]
      split
      · split
        · exact ⟨before.past, before.small, before.refused, before.retains, before.disciplined⟩
        · exact ⟨before.past, before.small, before.refused, before.retains, before.disciplined⟩
      · exact before
  | failed there _ =>
      refine bounded.replace growth rfl there fun before => ?_
      exact ⟨before.past, before.small, before.refused, before.retains, before.disciplined⟩
  | merged there _ => exact bounded.replace growth rfl there fun before => before.merge (calm _ there)

theorem bounded_start (configs : List (String × List ThresholdPolicy)) : (start configs).Bounded := by
  refine @start_rule Bounded (fun _ member => absurd member List.not_mem_nil) ?_ configs
  intro process config bounded slot member
  rcases List.mem_append.mp member with old | new
  · exact bounded slot old
  · obtain ⟨policy, -, rfl⟩ := List.mem_map.mp new
    exact bounded_built _ policy

/-- The calls whose frames have been written upstream, on any connection. -/
def written (process : Process) : List Nat :=
  process.connections.flatMap fun connection => connection.toUpstream.filterMap Sent.call

/-- The blast radius of the action a call is about. -/
def radius (process : Process) (k : Nat) : Nat := (process.calls[k]?.map fun call => call.action.blastRadius).getD 0

/-- The policy has been asked about the call for a key, at a time from `since` on that is at
    most a window later. -/
structure Charged (process : Process) (handle : Nat) (slot : Slot) (key : Identity) (since : Int) (k : Nat) : Prop where
  asked : ∃ ask ∈ slot.asksOf k, since ≤ ask.time ∧ ask.time ≤ since + slot.policy.config.window
  judged : ∃ call, process.calls[k]? = some call ∧ handle ∈ call.policies ∧
    slot.policy.config.historyKey call.ctx = key

theorem mem_written {process : Process} {k : Nat} (sound : process.Sound connector) (member : k ∈ process.written) :
    ∃ call, process.calls[k]? = some call ∧ call.decision = some .allow := by
  obtain ⟨connection, inside, sentBy⟩ := List.mem_flatMap.mp member
  obtain ⟨index, there⟩ := List.getElem?_of_mem inside
  obtain ⟨sent, sentHere, called⟩ := List.mem_filterMap.mp sentBy
  obtain ⟨call, found, -, -, decided, -⟩ := (sound.routed index connection there).forwarded sent sentHere k called
  exact ⟨call, found, decided⟩

/-- No call's frame is written twice, on the same connection or on two. -/
theorem nodup_written {process : Process} (sound : process.Sound connector) : process.written.Nodup := by
  refine List.nodup_flatMap.mpr ⟨?_, ?_⟩
  · intro connection member
    obtain ⟨index, there⟩ := List.getElem?_of_mem member
    exact ((List.nodup_append.mp (sound.routed index connection there).once).1)
  · rw [List.pairwise_iff_getElem]
    intro i j insideI insideJ before k first second
    have owner : ∀ (index : Nat) (inside : index < process.connections.length),
        k ∈ process.connections[index].toUpstream.filterMap Sent.call →
          ∃ call, process.calls[k]? = some call ∧ call.connection = index := by
      intro index inside member
      obtain ⟨sent, sentHere, called⟩ := List.mem_filterMap.mp member
      have routed := sound.routed index _ (List.getElem?_eq_getElem inside)
      obtain ⟨call, found, here, -⟩ := routed.forwarded sent sentHere k called
      exact ⟨call, found, here⟩
    obtain ⟨call, found, here⟩ := owner i insideI first
    obtain ⟨other, again, there⟩ := owner j insideJ second
    rw [found] at again
    cases again
    omega

/-- What a policy recorded of a call that was charged to it and written. -/
theorem Charged.ask {process : Process} (sound : process.Sound connector) {handle : Nat} {slot : Slot} {key : Identity}
    {since : Int} {k : Nat} (there : process.slots[handle]? = some slot)
    (charged : process.Charged handle slot key since k) (sent : k ∈ process.written) :
    ∃ ask ∈ slot.asks, ask.call = k ∧ ask.key = key ∧ process.outcome ask.call = some .allow ∧ since ≤ ask.time ∧
      ask.time ≤ since + slot.policy.config.window ∧ ask.radius = process.radius k := by
  obtain ⟨call, found, listed, rfl⟩ := charged.judged
  obtain ⟨ask, asked, since, upTo⟩ := charged.asked
  obtain ⟨other, again, decided⟩ := mem_written sound sent
  rw [found] at again
  cases again
  obtain ⟨same, here, answered⟩ := sound.recorded.allowed found decided listed
  rw [there] at here
  cases here
  have member := List.mem_filter.mp asked
  rcases answered with ⟨-, time, only⟩ | ⟨-, nothing, -⟩
  · rw [only, List.mem_singleton] at asked
    subst asked
    refine ⟨_, member.1, rfl, rfl, ?_, since, upTo, ?_⟩
    · rw [outcome, found, Option.bind_some, decided]
    · rw [radius, found, Option.map_some, Option.getD_some]
  · rw [nothing] at asked
    cases asked

variable (connector parse) in
/-- Over every calm run, frames that were written upstream are distinct, and of those that a
    policy was asked about within one of its windows, for one key, the blast radii add up to
    no more than its limit; each of them is within its limit for a single request. This
    holds of every policy the process has ever built, and across all connections. -/
theorem upstream_blast_radius_bounded (configs : List (String × List ThresholdPolicy)) (labels : List ProcessLabel)
    (calm : EachStep (step connector parse) Calm (start configs) labels) :
    (labels.foldl (step connector parse) (start configs)).written.Nodup ∧
      ∀ (handle : Nat) (slot : Slot),
        (labels.foldl (step connector parse) (start configs)).slots[handle]? = some slot →
        ∀ (key : Identity) (since : Int) (calls : List Nat),
          calls.Sublist (labels.foldl (step connector parse) (start configs)).written →
          (∀ k ∈ calls, (labels.foldl (step connector parse) (start configs)).Charged handle slot key since k) →
          (calls.map (labels.foldl (step connector parse) (start configs)).radius).sum ≤
              slot.policy.config.maxPerWindow ∧
            ∀ k ∈ calls, (labels.foldl (step connector parse) (start configs)).radius k ≤
              slot.policy.config.maxPerRequest := by
  have sound := always_sound connector parse configs labels labels (List.prefix_refl labels)
  have bounded := calm.invariant (bounded_start configs)
    fun process label here keeps => (process.change label).bounded keeps here
  generalize labels.foldl (step connector parse) (start configs) = process at sound bounded ⊢
  refine ⟨nodup_written sound, ?_⟩
  intro handle slot there key since calls part charged
  obtain ⟨window, request⟩ := (bounded slot (List.mem_of_getElem? there)).limits
  have asks := fun k member => (charged k member).ask sound there (part.subset member)
  constructor
  · refine Nat.le_trans ?_ (window key since)
    refine Nat.le_trans ?_ (sum_fibers_le Ask.call Ask.radius _ (part.nodup (nodup_written sound)))
    apply List.sum_le_sum
    intro k member
    obtain ⟨ask, recorded, call, sameKey, allowed, begins, ends, weight⟩ := asks k member
    rw [← weight]
    apply List.single_le_sum (fun _ _ => Nat.zero_le _)
    refine List.mem_map_of_mem (List.mem_filter.mpr ⟨List.mem_filter.mpr ⟨recorded, ?_⟩, decide_eq_true call⟩)
    exact decide_eq_true ⟨sameKey, allowed, begins, ends⟩
  · intro k member
    obtain ⟨ask, recorded, -, -, allowed, -, -, weight⟩ := asks k member
    rw [← weight]
    exact request ask recorded allowed

theorem requests_within_budget :
    requested.written = [0, 1] ∧ ∃ slot, requested.slots[0]? = some slot ∧
      (∀ k ∈ [0, 1], requested.Charged 0 slot ⟨"ip:10.0.0.1"⟩ 5 k) ∧
      ([0, 1].map requested.radius).sum ≤ slot.policy.config.maxPerWindow := by
  have calm : EachStep (step Relay.deleteConnector twoFiles) Calm
      (start [("ldap.toml", [⟨ThresholdPolicy.minuteConfig, .empty, none⟩])]) requests := by
    simp only [requests, eachStep_cons]
    exact ⟨trivial, trivial, by decide +kernel, trivial, trivial, by decide +kernel, trivial, trivial,
      by decide +kernel, by decide +kernel, trivial, eachStep_nil⟩
  have charged : ∀ k ∈ [0, 1], requested.Charged 0 (requested.slots[0]) ⟨"ip:10.0.0.1"⟩ 5 k := by
    intro k member
    rcases List.mem_cons.mp member with rfl | member
    · exact ⟨⟨⟨0, ⟨"ip:10.0.0.1"⟩, 5, 1, .allow⟩, by decide +kernel, by decide, by decide +kernel⟩, _, rfl,
        by decide +kernel, by decide +kernel⟩
    · rw [List.mem_singleton.mp member]
      exact ⟨⟨⟨1, ⟨"ip:10.0.0.1"⟩, 7, 1, .allow⟩, by decide +kernel, by decide, by decide +kernel⟩, _, rfl,
        by decide +kernel, by decide +kernel⟩
  have all : requested.written = [0, 1] := by decide +kernel
  have bound := (upstream_blast_radius_bounded Relay.deleteConnector twoFiles _ requests calm).2 0 _ rfl
    ⟨"ip:10.0.0.1"⟩ 5 [0, 1]
  exact ⟨all, _, rfl, charged, (bound (by rw [← all]; exact List.Sublist.refl _) charged).1⟩

end AiProtect.Process
