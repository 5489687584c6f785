import AiProtect.Policy.SharedBudget
import AiProtect.Proxy.UpstreamBudget
import AiProtect.Store.AnchorRange

/-! # The budget after a restart

A policy that comes up with an SQLite file begins with a window it has not filled itself.
What a process admits from then on fits the budget together with these units, whoever wrote
them: an earlier life of the process, or another instance. How the rows came into the file
plays no part, so this holds after a crash at any point.
-/

namespace AiProtect

open SlidingWindow Runs

/-- All that a calm step does to a policy, as far as its windows and admissions go. -/
inductive Slot.Moves (slot after : Slot) : Prop where
  | still (config : after.policy.config = slot.policy.config) (clock : after.clock = slot.clock)
      (log : ∀ id, after.admitted id = slot.admitted id)
      (windows : ∀ id, after.policy.history.window id = slot.policy.history.window id)
  | kept {now : Int} (config : after.policy.config = slot.policy.config) (reached : slot.clock ≤ (now : WithBot Int))
      (clock : after.clock = (now : WithBot Int)) (log : ∀ id, after.admitted id = slot.admitted id)
      (windows : ∀ id later, now ≤ later →
        ((slot.policy.history.window id).filter (recent (slot.policy.config.window : Int) later)).Subperm
          (after.policy.history.window id))
  | granted {now : Int} {key : Identity} {radius : Nat} (config : after.policy.config = slot.policy.config)
      (reached : slot.clock ≤ (now : WithBot Int)) (clock : after.clock = (now : WithBot Int))
      (log : ∀ id, after.admitted id =
        if id = key then slot.admitted key ++ [(now, radius)] else slot.admitted id)
      (room : (slot.policy.measured key now).length + radius ≤ slot.policy.config.maxPerWindow)
      (windows : ∀ id, after.policy.history.window id =
        if id = key then slot.policy.measured key now ++ List.replicate radius now
        else slot.policy.history.window id)

namespace Slot

/-- What is refused is not admitted. -/
theorem admitted_refused {slot after : Slot} {ask : Ask} (asks : after.asks = slot.asks ++ [ask]) {reason : String}
    (refused : ask.decision = .block reason) (id : Identity) : after.admitted id = slot.admitted id := by
  have ne : ask.decision ≠ .allow := by
    rw [refused]
    exact Decision.noConfusion
  simp only [admitted, asks, List.filter_append, List.filter_singleton, ne, and_false, decide_false, cond_false,
    List.append_nil]

/-- A question, as long as it is calm. -/
theorem moves_evaluate (slot : Slot) (call : Nat) {action : Action} {ctx : PolicyContext} {now : Int}
    (calm : slot.policy.measures action = true → slot.CalmAsk action ctx now) :
    slot.Moves (slot.evaluate call action ctx now).2 := by
  simp only [Slot.evaluate, ThresholdPolicy.measures] at calm ⊢
  cases slot.policy.evaluate_outcome action ctx now with
  | bypassed outside result =>
      simp only [result, outside, Bool.false_eq_true, Bool.false_and, if_false]
      exact .still rfl rfl (fun _ => rfl) fun _ => rfl
  | oversized covered large result =>
      have unread : decide (action.blastRadius ≤ slot.policy.config.maxPerRequest) = false :=
        decide_eq_false (by omega)
      simp only [result, covered, unread, Bool.and_false, Bool.false_eq_true, if_false, if_true]
      exact .still rfl rfl (admitted_refused rfl rfl) fun _ => rfl
  | overBudget covered small full result =>
      simp only [covered, decide_eq_true small, Bool.and_true, forall_const] at calm
      simp only [result, covered, decide_eq_true small, Bool.and_true, if_true]
      refine .kept rfl calm.clock rfl (admitted_refused rfl rfl) ?_
      exact fun id later after => ThresholdPolicy.filter_subperm_prepare calm.kept id after
  | admitted covered small fits result =>
      simp only [covered, decide_eq_true small, Bool.and_true, forall_const] at calm
      rw [addUsize_of_fits calm.fits] at fits
      simp only [result, covered, decide_eq_true small, Bool.and_true, if_true]
      refine .granted rfl calm.clock rfl ?_ fits ?_
      · intro id
        by_cases mine : id = slot.policy.config.historyKey ctx
        · simp [Slot.admitted, mine]
        · simp [Slot.admitted, mine, Ne.symm mine]
      · intro id
        rw [History.window_recordAdmitted (ThresholdPolicy.get_prepare_isSome _ _ _),
          ThresholdPolicy.window_prepare_self, ThresholdPolicy.window_prepare _ _ calm.kept]
        split <;> rfl

theorem moves_merge (slot : Slot) {rows : Snapshot} {now : Int}
    (calm : ∀ anchor ∈ slot.syncing, slot.CalmMerge anchor rows now) : slot.Moves (slot.merge rows now) := by
  simp only [Slot.merge]
  cases syncing : slot.syncing with
  | none => exact .still rfl rfl (fun _ => rfl) fun _ => rfl
  | some anchor =>
      obtain ⟨reached, kept⟩ := calm anchor syncing
      refine .kept rfl reached rfl (fun _ => rfl) fun id later after => ?_
      have windows : (slot.policy.foldSnapshot anchor rows now).history.window id =
          (mergeHistoryFromRows slot.policy.history anchor rows slot.policy.config.window now).window id := by
        simp only [History.window, History.get, kept]
      rw [windows]
      exact (ThresholdPolicy.filter_subperm_merge anchor rows _ id after).trans List.filter_sublist.subperm

theorem moves_drain (slot : Slot) (anchor : Anchor) : slot.Moves (slot.drain anchor) := by
  simp only [Slot.drain, ThresholdPolicy.drain]
  split
  · split <;> exact .still rfl rfl (fun _ => rfl) fun _ => rfl
  · exact .still rfl rfl (fun _ => rfl) fun _ => rfl

/-- The windows still have what is recent of the units they began with and of those that
    were admitted since, and each admission fitted with all of these. -/
structure Resumed (config : ThresholdConfig) (base : Identity → List (Int × Nat)) (slot : Slot) : Prop where
  unchanged : slot.policy.config = config
  retains : ∀ id, Retains (config.window : Int) slot.clock (base id ++ slot.admitted id)
    (slot.policy.history.window id)
  fitted : ∀ id, Fitted (config.window : Int) config.maxPerWindow (base id) (slot.admitted id)

/-- The units in the windows of a policy, each an event of its own. -/
def brought (policy : ThresholdPolicy) (id : Identity) : List (Int × Nat) :=
  (policy.history.window id).map fun time => (time, 1)

theorem units_brought (policy : ThresholdPolicy) (id : Identity) :
    units (brought policy id) = policy.history.window id := by
  rw [units, brought, List.flatMap_map]
  exact List.flatMap_singleton' _

theorem resumed_built (policy : ThresholdPolicy) :
    (built policy).Resumed policy.config (brought policy) where
  unchanged := rfl
  retains := by
    intro id later _
    have nothing : (built policy).admitted id = [] := rfl
    rw [nothing, List.append_nil, units_brought]
    exact List.filter_sublist.subperm
  fitted := fun _ => .nil

theorem Resumed.moves {config : ThresholdConfig} {base : Identity → List (Int × Nat)} {slot after : Slot}
    (resumed : slot.Resumed config base) (moves : slot.Moves after) : after.Resumed config base := by
  obtain ⟨rfl, retains, fitted⟩ := resumed
  cases moves with
  | still same clock log windows =>
      refine ⟨same, fun id => ?_, fun id => ?_⟩
      · rw [clock, log, windows]
        exact retains id
      · rw [log]
        exact fitted id
  | kept same reached clock log windows =>
      refine ⟨same, fun id => ?_, fun id => ?_⟩
      · rw [clock, log]
        exact (retains id).replace reached (windows id)
      · rw [log]
        exact fitted id
  | @granted now key radius same reached clock log room windows =>
      -- what the call has measured is the window it leaves, up to the new units
      have measured : Retains (slot.policy.config.window : Int) (now : WithBot Int) (base key ++ slot.admitted key)
          (slot.policy.measured key now) := by
        refine (retains key).replace reached fun later after => ?_
        rw [← ThresholdPolicy.filter_measured slot.policy key after]
        exact List.filter_sublist.subperm
      refine ⟨same, fun id => ?_, fun id => ?_⟩
      · rw [clock, log, windows]
        split
        · rename_i mine
          rw [mine, ← List.append_assoc]
          exact measured.extend now radius
        · exact (retains id).replace reached fun _ _ => List.filter_sublist.subperm
      · rw [log]
        split
        · rename_i mine
          rw [mine]
          refine (fitted key).snoc ?_
          have held := measured.sumWhere_le
          omega
        · exact fitted id

/-- In every interval in which something was admitted since, the units brought along count. -/
theorem Resumed.within {config : ThresholdConfig} {policy : ThresholdPolicy} {slot : Slot}
    (resumed : slot.Resumed config (brought policy)) {key : Identity} {since : Int} {ask : Ask}
    (member : ask ∈ slot.asks)
    (mine : ask.key = key) (allowed : ask.decision = .allow) (begins : since ≤ ask.time)
    (ends : ask.time ≤ since + config.window) :
    ((policy.history.window key).filter fun time => since ≤ time ∧ time ≤ since + config.window).length +
      ((slot.asks.filter fun ask => ask.key = key ∧ ask.decision = .allow ∧ since ≤ ask.time ∧
        ask.time ≤ since + config.window).map Ask.radius).sum ≤ config.maxPerWindow := by
  have inside : ∃ event ∈ slot.admitted key, since ≤ event.1 ∧ event.1 ≤ since + config.window :=
    ⟨_, List.mem_map_of_mem (List.mem_filter.mpr ⟨member, decide_eq_true ⟨mine, allowed⟩⟩), begins, ends⟩
  have total := (resumed.fitted key).intervalSum_le since inside
  rw [sumWhere_append, ← length_filter_units, units_brought] at total
  refine Nat.le_trans (Nat.add_le_add_left (Nat.le_of_eq ?_) _) total
  simp only [sumWhere, admitted, List.filter_map, List.map_map, List.filter_filter]
  refine congrArg List.sum (congrArg (List.map Ask.radius) (List.filter_congr fun ask _ => ?_))
  simp only [Function.comp_apply, ← Bool.decide_and, decide_eq_decide]
  constructor
  · rintro ⟨mine, allowed, during⟩
    exact ⟨during, mine, allowed⟩
  · rintro ⟨during, mine, allowed⟩
    exact ⟨mine, allowed, during⟩

end Slot

namespace Process

variable {connector : LdapConnector} {parse : String → Option (List PolicyEntry)}

/-- A slot, once it is there, is still there after a step, and has moved if it has changed. -/
theorem Change.moves {process after : Process} {label : ProcessLabel}
    (change : Change connector parse process label after) (calm : process.Calm label) {handle : Nat} {slot : Slot}
    (there : process.slots[handle]? = some slot) :
    ∃ next, after.slots[handle]? = some next ∧ slot.Moves next := by
  have still : slot.Moves slot := .still rfl rfl (fun _ => rfl) fun _ => rfl
  have set : ∀ {other : Nat} {before next : Slot}, process.slots[other]? = some before → before.Moves next →
      ∃ found, (process.slots.set other next)[handle]? = some found ∧ slot.Moves found := by
    intro other before next found moves
    by_cases same : other = handle
    · subst same
      rw [found] at there
      cases there
      obtain ⟨inside, -⟩ := List.getElem?_eq_some_iff.mp found
      exact ⟨next, List.getElem?_set_self inside, moves⟩
    · exact ⟨slot, (List.getElem?_set_ne same).trans there, still⟩
  have extended : ∀ more : List Slot, (process.slots ++ more)[handle]? = some slot := by
    intro more
    obtain ⟨inside, -⟩ := List.getElem?_eq_some_iff.mp there
    rw [List.getElem?_append_left inside, there]
  cases change with
  | idle | turned _ _ | exited _ | closed _ _ | accepted _ _ | dropped _ _ _ _ | spoke _ _ _ _ _ _
  | opened _ _ _ _ _ | returned _ _ _ | logged _ _ _ _ _ _ | unanswerable _ _ _ _ | taskEnded _ _ _ =>
      exact ⟨slot, there, still⟩
  | replaced _ _ _ _ | discarded _ _ _ _ => exact ⟨slot, extended _, still⟩
  | @passed k _ _ _ before _ found undecided asked here verdict =>
      have moves := before.moves_evaluate k (calm _ found undecided _ asked _ here)
      rw [verdict] at moves
      exact set here moves
  | @blocked k _ _ _ before _ _ found undecided asked here verdict =>
      have moves := before.moves_evaluate k (calm _ found undecided _ asked _ here)
      rw [verdict] at moves
      exact set here moves
  | drained here _ _ _ => exact set here (Slot.moves_drain _ _)
  | failed here _ => exact set here (.still rfl rfl (fun _ => rfl) fun _ => rfl)
  | merged here _ => exact set here (Slot.moves_merge _ (calm _ here))

/-- The policy of a handle has gone on from what it was built with. -/
def ResumedAt (handle : Nat) (policy : ThresholdPolicy) (process : Process) : Prop :=
  ∃ slot, process.slots[handle]? = some slot ∧ slot.Resumed policy.config (Slot.brought policy)

/-- From the moment a policy is built, over any calm run. -/
theorem resumed_run {process : Process} {handle : Nat} {policy : ThresholdPolicy}
    (built : process.slots[handle]? = some (.built policy)) {labels : List ProcessLabel}
    (calm : EachStep (step connector parse) Calm process labels) :
    (labels.foldl (step connector parse) process).ResumedAt handle policy := by
  have start : process.ResumedAt handle policy := ⟨_, built, Slot.resumed_built policy⟩
  refine calm.invariant start fun process label here keeps => ?_
  obtain ⟨slot, there, resumed⟩ := here
  obtain ⟨next, found, moves⟩ := (@change connector parse process label).moves keeps there
  exact ⟨next, found, resumed.moves moves⟩

end Process

namespace Sqlite

/-- Nothing is beyond the cap if the ranking is not. -/
theorem blockingSync_of_short_ranking {ranking : List String} {cap : Nat} (few : ranking.length ≤ cap)
    (small : cap < 2 ^ 63)
    (table newEvents : List Row) (cutoff : Int) :
    blockingSync ranking table newEvents cutoff cap = (table ++ newEvents).filter fun row => cutoff ≤ row.2 := by
  have none : beyondCap ranking cap = [] := by
    rw [beyondCap, wrapI64_of_fits (by omega) (by omega), Int.toNat_natCast]
    exact List.drop_eq_nil_of_le few
  simp only [blockingSync, none, List.not_mem_nil, not_false_eq_true, decide_true, List.filter_true]

/-- The identities of an answer are among those that were ranked. -/
theorem Answers.keys_length_le {rows : Snapshot} {table : List Row} (answers : Answers rows table)
    {ranking : List String} (ranked : IsRanking table ranking) : rows.keys.length ≤ ranking.length := by
  have listed : rows.keys ⊆ ranking := by
    intro identity member
    have found : rows.lookup identity = (collect (select table)).lookup identity := AList.perm_lookup answers
    have there : (rows.lookup identity).isSome = true := AList.lookup_isSome.mpr (AList.mem_keys.mpr member)
    rw [found, collect, lookup_foldl_pushRow] at there
    split at there
    · cases there
    · rename_i some
      obtain ⟨timestamp, stored⟩ := List.exists_mem_of_ne_nil _ some
      have kept := (timestamps_select_perm table identity).subset stored
      obtain ⟨row, inside, -⟩ := List.mem_map.mp kept
      obtain ⟨inside, mine⟩ := List.mem_filter.mp inside
      rw [ranked.complete, ← of_decide_eq_true mine]
      exact List.mem_map_of_mem inside
  exact (rows.keys_nodup.subperm listed).length_le

end Sqlite

namespace History

theorem tracked_rowsIntoHistory {anchor : Anchor} {rows : Snapshot} {width : Nat} {now : Int} {id : Identity}
    (found : ((rowsIntoHistory anchor rows width now).get id).isSome = true) : id.name ∈ rows.keys := by
  have fold : ∀ (entries : List (Sigma fun _ : String => List Int)) (history : History),
      ((entries.foldl (fun history row =>
        if (loadWindow anchor now width row.2).isEmpty then history
        else history.set ⟨row.1⟩ (loadWindow anchor now width row.2)) history).get id).isSome = true →
      id.name ∈ entries.keys ∨ (history.get id).isSome = true := by
    intro entries
    induction entries with
    | nil => exact fun _ there => .inr there
    | cons row entries ih =>
        intro history there
        rcases ih _ there with later | before
        · exact .inl (List.mem_cons_of_mem _ later)
        · dsimp only at before
          split at before
          · exact .inr before
          · rw [get_set] at before
            split at before
            · rename_i same
              rw [same]
              exact .inl List.mem_cons_self
            · exact .inr before
  rcases fold rows.entries .empty found with member | before
  · exact member
  · rw [get_empty] at before
    cases before

theorem len_rowsIntoHistory_le (anchor : Anchor) (rows : Snapshot) (width : Nat) (now : Int) :
    (rowsIntoHistory anchor rows width now).len ≤ rows.keys.length := by
  have named : (rowsIntoHistory anchor rows width now).byIdentity.keys.image Identity.name ⊆ rows.keys.toFinset := by
    intro name member
    obtain ⟨id, tracked, rfl⟩ := Finset.mem_image.mp member
    exact List.mem_toFinset.mpr (tracked_rowsIntoHistory (Finmap.lookup_isSome.mpr (Finmap.mem_keys.mp tracked)))
  have fewer := Finset.card_le_card named
  rw [Finset.card_image_of_injective _ Identity.name_injective] at fewer
  exact fewer.trans (List.toFinset_card_le _)

end History

/-- A row that lies within a window from `since` on, once it is converted. -/
def Anchor.dates (anchor : Anchor) (key : Identity) (since : Int) (width : Nat) (row : Sqlite.Row) : Bool :=
  decide (row.1 = key.name) && (anchor.toInstant row.2).any fun time => since ≤ time ∧ time ≤ since + width

/-- A load that `new` makes from a table: SQLite answers for the rows that are not too old,
    which belong to no more identities than are tracked, the clock does not go back in the
    middle, and no conversion overflows. -/
structure Restored (config : ThresholdConfig) (anchor : Anchor) (rows : Snapshot) (now : Int)
    (table : List Sqlite.Row) : Prop where
  answered : ∃ ranking,
    Sqlite.IsRanking (table.filter fun row => anchor.epochMillisBefore config.window ≤ row.2) ranking ∧
    ranking.length ≤ config.maxTrackedIdentities ∧ Sqlite.Answers rows (Sqlite.blockingSync ranking table []
      (anchor.epochMillisBefore config.window) config.maxTrackedIdentities)
  small : config.maxTrackedIdentities < 2 ^ 63
  onward : anchor.instant ≤ now
  cutoff : ∀ result ∈ anchor.epochMillisBeforeResults config.window, FitsI64 result
  converts : ∀ row ∈ table, anchor.Converts row.2

namespace Restored

variable {config : ThresholdConfig} {anchor : Anchor} {rows : Snapshot} {now : Int} {table : List Sqlite.Row}

theorem holdsAll (restored : Restored config anchor rows now table) :
    HoldsAll rows (table.filter fun row => anchor.epochMillisBefore config.window ≤ row.2) := by
  obtain ⟨ranking, -, few, answers⟩ := restored.answered
  rw [Sqlite.blockingSync_of_short_ranking few restored.small, List.append_nil] at answers
  exact answers.holdsAll

/-- The cap evicts nothing of what is loaded. -/
theorem window_new (restored : Restored config anchor rows now table) (key : Identity) :
    (ThresholdPolicy.new config (.loaded anchor rows now)).history.window key =
      loadWindow anchor now config.window ((rows.lookup key.name).getD []) := by
  obtain ⟨ranking, ranked, few, answers⟩ := restored.answered
  rw [Sqlite.blockingSync_of_short_ranking few restored.small, List.append_nil] at answers
  have fits : (rowsIntoHistory anchor rows config.window now).len ≤ config.maxTrackedIdentities :=
    ((History.len_rowsIntoHistory_le anchor rows config.window now).trans (answers.keys_length_le ranked)).trans few
  simp only [ThresholdPolicy.new, History.evictStalestUntil_of_le fits, window_rowsIntoHistory]
  cases rows.lookup key.name <;> rfl

/-- A row that counts from some time on, which is no more than a window ago at the load, is
    not too old for the store. -/
theorem not_too_old (restored : Restored config anchor rows now table) {key : Identity} {since : Int}
    (recently : now ≤ since + config.window) {row : Sqlite.Row} (stored : row ∈ table)
    (dated : anchor.dates key since config.window row = true) : anchor.epochMillisBefore config.window ≤ row.2 := by
  obtain ⟨-, converted⟩ := Bool.and_eq_true_iff.mp dated
  obtain ⟨time, found, during⟩ := (Option.any_eq_true _ _).mp converted
  have placed := Anchor.toInstant_of_converts (restored.converts row stored) found
  have begins := (of_decide_eq_true during).1
  have onward := restored.onward
  obtain ⟨window, cutoff, -⟩ := List.forall_mem_cons.mp restored.cutoff |>.imp id List.forall_mem_cons.mp
  rw [wrapI64_of_fits window.1 window.2] at cutoff
  rw [Anchor.epochMillisBefore, wrapI64_of_fits window.1 window.2, wrapI64_of_fits cutoff.1 cutoff.2, asMillis]
  omega

theorem length_filter_filterMap {α β : Type} (convert : α → Option β) (keep : β → Bool) (list : List α) :
    ((list.filterMap convert).filter keep).length = (list.filter fun entry => (convert entry).any keep).length := by
  rw [← List.countP_eq_length_filter, List.countP_filterMap, List.countP_eq_length_filter]
  refine congrArg List.length (List.filter_congr fun entry _ => ?_)
  cases convert entry <;> rfl

/-- What the table has from a time on is in the window that is loaded from it. -/
theorem length_window (restored : Restored config anchor rows now table) (key : Identity) {since : Int}
    (recently : now ≤ since + config.window) :
    (((ThresholdPolicy.new config (.loaded anchor rows now)).history.window key).filter
        fun time => since ≤ time ∧ time ≤ since + config.window).length =
      (table.filter (anchor.dates key since config.window)).length := by
  have loaded := ((restored.holdsAll key.name).filterMap anchor.toInstant)
  have inside : ∀ times : List Int, ((times.filter (recent (config.window : Int) now)).filter
      fun time => since ≤ time ∧ time ≤ since + config.window) =
        times.filter fun time => since ≤ time ∧ time ≤ since + config.window := by
    intro times
    rw [List.filter_filter]
    refine List.filter_congr fun time _ => ?_
    simp only [recent, ← Bool.decide_and, decide_eq_decide]
    omega
  rw [restored.window_new, loadWindow, History.recent_eq, ((List.perm_insertionSort _ _).filter _).length_eq, inside,
    (loaded.filter _).length_eq, length_filter_filterMap, Sqlite.timestamps, List.filter_map, List.length_map,
    List.filter_filter, List.filter_filter]
  refine congrArg List.length (List.filter_congr fun row stored => ?_)
  have kept := @not_too_old _ _ _ _ _ restored key since recently row stored
  rw [Function.comp_apply, Bool.and_comm ((anchor.toInstant row.2).any _)]
  change (anchor.dates key since config.window row && _) = _
  cases dated : anchor.dates key since config.window row with
  | false => exact Bool.false_and _
  | true => exact decide_eq_true (kept dated)

end Restored

namespace Process

variable (connector : LdapConnector) (parse : String → Option (List PolicyEntry))

/-- A process is killed when it has stored one of the two units it has admitted. -/
def killed : Ledger :=
  [.evaluate ThresholdPolicy.lockAction ThresholdPolicy.agent 4000000, .drain ⟨5000000, 5⟩,
    .stored ["ip:10.0.0.1"] (AList.singleton "ip:10.0.0.1" [4]), .merged 5000000,
    .evaluate ThresholdPolicy.lockAction ThresholdPolicy.agent 5500000].foldl Ledger.step
    (.start ThresholdPolicy.minuteConfig .empty [])

/-- It comes up again with the file it left. -/
def revived : Process :=
  start [("ldap.toml", [.new ThresholdPolicy.minuteConfig
    (.loaded ⟨6000000, 6⟩ (AList.singleton "ip:10.0.0.1" [4]) 6000001)])]

def afterRevival : List ProcessLabel :=
  [.accept 0 "10.0.0.1", .receive 0 Relay.deleteFrame, .advance 0 7000000]

end Process

end AiProtect
