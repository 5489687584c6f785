import AiProtect.Policy.ExactWindow
import AiProtect.Policy.Merge
import AiProtect.Policy.StateSync

/-! # A private store against no store at all

A policy alone with its store should decide as the same policy without one: all the
store can tell it is what it knows. `Mirrors` is the relation between the two. It
survives a merge that sees no row it takes for new. Rows are compared by
millisecond and every cycle has its own anchor, so a policy may fail to recognise
its own row and count the unit twice.
-/

namespace AiProtect

open SlidingWindow Runs

namespace ThresholdPolicy

theorem foldl_afterCall_config (policy : ThresholdPolicy) (calls : List Call) :
    (calls.foldl afterCall policy).config = policy.config := by
  induction calls generalizing policy with
  | nil => rfl
  | cons call calls ih => rw [List.foldl_cons, ih, afterCall, evaluate_config]

/-- Windows in time order, none of it ahead of the last reading, for few identities. -/
structure Orderly (keys : Finset Identity) (policy : ThresholdPolicy) (last : WithBot Int) : Prop where
  tracked : ∀ id, (policy.history.get id).isSome = true → id ∈ keys
  sorted : ∀ id, (policy.history.window id).Pairwise (· ≤ ·)
  past : ∀ id, ∀ t ∈ policy.history.window id, (t : WithBot Int) ≤ last

namespace Orderly

variable {keys : Finset Identity} {policy : ThresholdPolicy} {last : WithBot Int}

theorem later (orderly : Orderly keys policy last) {now : WithBot Int} (le : last ≤ now) :
    Orderly keys policy now :=
  ⟨orderly.tracked, orderly.sorted, fun id t member => (orderly.past id t member).trans le⟩

theorem measured_eq (orderly : Orderly keys policy last) (key : Identity) (now : Int) :
    policy.measured key now = (policy.history.window key).filter (recent (policy.config.window : Int) now) :=
  measured_of_sorted (orderly.sorted key) now

theorem evaluate (orderly : Orderly keys policy last) {call : Call} (le : last ≤ (call.now : WithBot Int))
    (member : policy.config.callKey call ∈ keys) (few : keys.card ≤ policy.config.maxTrackedIdentities) :
    Orderly keys (policy.afterCall call) call.now := by
  have room := makeRoom_of_few orderly.tracked member few
  have windows := fun id => @window_evaluate policy call.action call.ctx call.now
    (fun _ => congrArg History.byIdentity room) id
  have measured := orderly.measured_eq (policy.config.historyKey call.ctx) call.now
  have past : ∀ t ∈ policy.measured (policy.config.historyKey call.ctx) call.now, t ≤ call.now := by
    rw [measured]
    intro t inside
    exact WithBot.coe_le_coe.mp ((orderly.past _ t (List.mem_of_mem_filter inside)).trans le)
  refine ⟨?_, ?_, ?_⟩
  · intro id found
    rcases tracked_evaluate found with rfl | before
    · exact member
    · exact orderly.tracked id before
  · intro id
    rw [afterCall, windows]
    split
    · refine sorted_admitted ?_ past _
      rw [measured]
      exact (orderly.sorted _).filter _
    · exact orderly.sorted id
  · intro id t inside
    rw [afterCall, windows] at inside
    split at inside
    · exact WithBot.coe_le_coe.mpr (past_admitted past _ t inside)
    · exact (orderly.past id t inside).trans le

end Orderly

/-- Every row that the anchor places inside the window is the millisecond of a
    timestamp that is there already. -/
def RowsKnown (policy : ThresholdPolicy) (anchor : Anchor) (rows : Snapshot) (now : Int) : Prop :=
  ∀ entry ∈ rows.entries, ∀ row ∈ entry.2, placed anchor now policy.config.window row = true →
    row ∈ ((policy.history.window ⟨entry.1⟩).filter (recent (policy.config.window : Int) now)).map
      anchor.toEpochMillis

instance (policy : ThresholdPolicy) (anchor : Anchor) (rows : Snapshot) (now : Int) :
    Decidable (policy.RowsKnown anchor rows now) :=
  inferInstanceAs (Decidable (∀ entry ∈ rows.entries, _))

/-- A snapshot without news prunes the windows it names. -/
theorem get_merge_known {policy : ThresholdPolicy} {anchor : Anchor} {rows : Snapshot} {now : Int}
    (sorted : ∀ id, (policy.history.window id).Pairwise (· ≤ ·)) (known : policy.RowsKnown anchor rows now)
    (id : Identity) :
    (mergeHistoryFromRows policy.history anchor rows policy.config.window now).get id =
      if rows.lookup id.name = none then policy.history.get id
      else if (policy.history.window id).filter (recent (policy.config.window : Int) now) = [] then none
      else some ((policy.history.window id).filter (recent (policy.config.window : Int) now)) := by
  rw [get_mergeHistoryFromRows]
  cases found : rows.lookup id.name with
  | none => rfl
  | some timestamps =>
      have member : (⟨id.name, timestamps⟩ : Sigma fun _ : String => List Int) ∈ rows.entries :=
        AList.mem_lookup_iff.mp found
      have pruned := mergeWindow_of_seen anchor now policy.config.window (sorted id) (known _ member)
      simp only [Option.elim_some, pruned, reduceCtorEq, if_false]

namespace Orderly

variable {keys : Finset Identity} {policy : ThresholdPolicy} {last : WithBot Int} {anchor : Anchor}
  {rows : Snapshot} {now : Int}

theorem tracked_merge (orderly : Orderly keys policy last) (known : policy.RowsKnown anchor rows now) (id : Identity)
    (found : ((mergeHistoryFromRows policy.history anchor rows policy.config.window now).get id).isSome = true) :
    id ∈ keys := by
  rw [get_merge_known orderly.sorted known] at found
  split at found
  · exact orderly.tracked id found
  · split at found
    · cases found
    · rename_i some
      apply orderly.tracked
      cases absent : policy.history.get id with
      | none => exact absurd (by rw [History.window, absent]; rfl) some
      | some entry => rfl

/-- Nobody is evicted after a merge without news. -/
theorem history_foldSnapshot (orderly : Orderly keys policy last)
    (few : keys.card ≤ policy.config.maxTrackedIdentities) (known : policy.RowsKnown anchor rows now) :
    (policy.foldSnapshot anchor rows now).history =
      mergeHistoryFromRows policy.history anchor rows policy.config.window now := by
  apply History.evictStalestUntil_of_le
  refine le_trans (Finset.card_le_card ?_) few
  intro id member
  exact orderly.tracked_merge known id (Finmap.lookup_isSome.mpr (Finmap.mem_keys.mp member))

theorem window_foldSnapshot (orderly : Orderly keys policy last)
    (few : keys.card ≤ policy.config.maxTrackedIdentities) (known : policy.RowsKnown anchor rows now)
    (id : Identity) :
    (policy.foldSnapshot anchor rows now).history.window id = policy.history.window id ∨
      (policy.foldSnapshot anchor rows now).history.window id =
        (policy.history.window id).filter (recent (policy.config.window : Int) now) := by
  rw [orderly.history_foldSnapshot few known, History.window, get_merge_known orderly.sorted known]
  split
  · exact .inl rfl
  · split
    · rename_i emptied
      exact .inr emptied.symm
    · exact .inr rfl

theorem foldSnapshot (orderly : Orderly keys policy last) (le : last ≤ (now : WithBot Int))
    (few : keys.card ≤ policy.config.maxTrackedIdentities) (known : policy.RowsKnown anchor rows now) :
    Orderly keys (policy.foldSnapshot anchor rows now) now := by
  refine ⟨?_, ?_, ?_⟩
  · rw [orderly.history_foldSnapshot few known]
    exact orderly.tracked_merge known
  · intro id
    rcases orderly.window_foldSnapshot few known id with same | pruned
    · rw [same]
      exact orderly.sorted id
    · rw [pruned]
      exact (orderly.sorted id).filter _
  · intro id t inside
    rcases orderly.window_foldSnapshot few known id with same | pruned
    · rw [same] at inside
      exact (orderly.past id t inside).trans le
    · rw [pruned] at inside
      exact (orderly.past id t (List.mem_of_mem_filter inside)).trans le

/-- A merge without news does not change what is recent from then on. -/
theorem recent_foldSnapshot (orderly : Orderly keys policy last)
    (few : keys.card ≤ policy.config.maxTrackedIdentities) (known : policy.RowsKnown anchor rows now)
    (id : Identity) {later : Int} (after : now ≤ later) :
    ((policy.foldSnapshot anchor rows now).history.window id).filter (recent (policy.config.window : Int) later) =
      (policy.history.window id).filter (recent (policy.config.window : Int) later) := by
  rcases orderly.window_foldSnapshot few known id with same | pruned
  · rw [same]
  · rw [pruned, filter_recent_recent after]

end Orderly

/-- Two policies that count the same units from the last reading on. -/
structure Mirrors (keys : Finset Identity) (policy memory : ThresholdPolicy) (last : WithBot Int) : Prop where
  sameConfig : policy.config = memory.config
  orderly : Orderly keys policy last
  memoryOrderly : Orderly keys memory last
  agrees : ∀ id (now : Int), last ≤ (now : WithBot Int) →
    (policy.history.window id).filter (recent (memory.config.window : Int) now) =
      (memory.history.window id).filter (recent (memory.config.window : Int) now)

namespace Mirrors

variable {keys : Finset Identity} {policy memory : ThresholdPolicy} {last : WithBot Int}

theorem measured_eq (mirrors : Mirrors keys policy memory last) (key : Identity) {now : Int}
    (le : last ≤ (now : WithBot Int)) : policy.measured key now = memory.measured key now := by
  rw [mirrors.orderly.measured_eq, mirrors.memoryOrderly.measured_eq, mirrors.sameConfig, mirrors.agrees key now le]

/-- A decision reads nothing of the policy but its configuration and the measured window. -/
theorem decision_eq (mirrors : Mirrors keys policy memory last) (call : Call) (le : last ≤ (call.now : WithBot Int)) :
    (policy.evaluate call.action call.ctx call.now).1 = (memory.evaluate call.action call.ctx call.now).1 := by
  have measured := mirrors.measured_eq (memory.config.historyKey call.ctx) le
  simp only [evaluate, mirrors.sameConfig, History.windowLen_eq, window_prepare_self, measured]
  split
  · rfl
  · split
    · rfl
    · split <;> rfl

theorem evaluate (mirrors : Mirrors keys policy memory last) {call : Call} (le : last ≤ (call.now : WithBot Int))
    (member : memory.config.callKey call ∈ keys) (few : keys.card ≤ memory.config.maxTrackedIdentities) :
    Mirrors keys (policy.afterCall call) (memory.afterCall call) call.now := by
  have member' : policy.config.callKey call ∈ keys := mirrors.sameConfig ▸ member
  have few' : keys.card ≤ policy.config.maxTrackedIdentities := mirrors.sameConfig ▸ few
  have room := makeRoom_of_few mirrors.orderly.tracked member' few'
  have memoryRoom := makeRoom_of_few mirrors.memoryOrderly.tracked member few
  have windows := fun id => @window_evaluate policy call.action call.ctx call.now
    (fun _ => congrArg History.byIdentity room) id
  have memoryWindows := fun id => @window_evaluate memory call.action call.ctx call.now
    (fun _ => congrArg History.byIdentity memoryRoom) id
  refine ⟨?_, mirrors.orderly.evaluate le member' few', mirrors.memoryOrderly.evaluate le member few, ?_⟩
  · rw [afterCall, afterCall, evaluate_config, evaluate_config, mirrors.sameConfig]
  · intro id now after
    have measured := mirrors.measured_eq (memory.config.historyKey call.ctx) le
    have same : policy.recorded call.action call.ctx call.now = memory.recorded call.action call.ctx call.now := by
      rw [recorded, recorded, admits, admits, mirrors.sameConfig, measured]
    have looks : policy.measures call.action = memory.measures call.action := by
      rw [measures, measures, mirrors.sameConfig]
    rw [afterCall, afterCall, windows, memoryWindows, evaluate_config, mirrors.sameConfig, looks, measured, same]
    by_cases touched : memory.measures call.action = true ∧ id = memory.config.historyKey call.ctx
    · rw [if_pos touched, if_pos touched]
    · rw [if_neg touched, if_neg touched]
      exact mirrors.agrees id now (le.trans after)

/-- Folding in a snapshot without news leaves the two in step. -/
theorem foldSnapshot (mirrors : Mirrors keys policy memory last) {anchor : Anchor} {rows : Snapshot} {now : Int}
    (le : last ≤ (now : WithBot Int)) (few : keys.card ≤ memory.config.maxTrackedIdentities)
    (known : policy.RowsKnown anchor rows now) :
    Mirrors keys (policy.foldSnapshot anchor rows now) memory now := by
  have few' : keys.card ≤ policy.config.maxTrackedIdentities := mirrors.sameConfig ▸ few
  refine ⟨mirrors.sameConfig, mirrors.orderly.foldSnapshot le few' known, mirrors.memoryOrderly.later le, ?_⟩
  intro id later after
  have kept := mirrors.orderly.recent_foldSnapshot few' known id (WithBot.coe_le_coe.mp after)
  rw [mirrors.sameConfig] at kept
  rw [kept]
  exact mirrors.agrees id later (le.trans after)

end Mirrors

end ThresholdPolicy

namespace SyncLabel

def call? : SyncLabel → Option Call
  | .evaluate action ctx now => some ⟨action, ctx, now⟩
  | _ => none

/-- The reading of the clock a step takes under the history's lock. -/
def reading? : SyncLabel → Option Int
  | .evaluate _ _ now => some now
  | .merged now => some now
  | _ => none

end SyncLabel

namespace StateSync

/-- The decisions of a run, in order. -/
def decisions (system : StateSync) : List SyncLabel → List Decision
  | [] => []
  | label :: labels =>
      match label with
      | .evaluate action ctx now =>
          (system.policy.evaluate action ctx now).1 :: (system.step label).decisions labels
      | _ => (system.step label).decisions labels

/-- A merge sees no row it takes for new. -/
def NoNews (system : StateSync) : SyncLabel → Prop
  | .merged now =>
      match system.phase with
      | .folding anchor rows => system.policy.RowsKnown anchor rows now
      | _ => True
  | _ => True

theorem le_reading {label : SyncLabel} {last : WithBot Int}
    (le : ∀ now ∈ label.reading?, last ≤ (now : WithBot Int)) :
    last ≤ (label.reading?.map WithBot.some).getD last := by
  cases reading : label.reading? with
  | none => exact le_rfl
  | some now => exact le now reading

/-- The steps of a sync leave a policy in step with its mirror. -/
theorem mirrors_sync {keys : Finset Identity} {system : StateSync} {memory : ThresholdPolicy} {last : WithBot Int}
    (mirrors : ThresholdPolicy.Mirrors keys system.policy memory last)
    (few : keys.card ≤ memory.config.maxTrackedIdentities) {label : SyncLabel} (sync : label.call? = none)
    (le : ∀ now ∈ label.reading?, last ≤ (now : WithBot Int)) (news : system.NoNews label) :
    ThresholdPolicy.Mirrors keys (system.step label).policy memory ((label.reading?.map WithBot.some).getD last) := by
  have move := system.policyStep label
  generalize (system.step label).policy = after at move
  cases move with
  | evaluated => cases sync
  | @folded anchor rows now phase =>
      simp only [NoNews, phase] at news
      exact mirrors.foldSnapshot (le now rfl) few news
  | kept history config =>
      have reached := le_reading le
      refine ⟨config.trans mirrors.sameConfig, ?_, mirrors.memoryOrderly.later reached, ?_⟩
      · have orderly := mirrors.orderly.later reached
        refine ⟨?_, ?_, ?_⟩ <;> simp only [history]
        · exact orderly.tracked
        · exact orderly.sorted
        · exact orderly.past
      · rw [history]
        exact fun id later after => mirrors.agrees id later (reached.trans after)

theorem decisions_sync (system : StateSync) {label : SyncLabel} (sync : label.call? = none)
    (labels : List SyncLabel) : system.decisions (label :: labels) = (system.step label).decisions labels := by
  cases label with
  | evaluate action ctx now => cases sync
  | drain _ | stored _ _ | failed | merged _ => rfl

/-- The last reading of a run that starts at `last`. -/
def lastReading (last : WithBot Int) (labels : List SyncLabel) : WithBot Int :=
  (labels.filterMap SyncLabel.reading?).foldl (fun _ now => (now : WithBot Int)) last

theorem lastReading_cons (last : WithBot Int) (label : SyncLabel) (labels : List SyncLabel) :
    lastReading last (label :: labels) = lastReading ((label.reading?.map WithBot.some).getD last) labels := by
  cases reading : label.reading? with
  | none => simp only [lastReading, List.filterMap_cons_none reading, Option.map_none, Option.getD_none]
  | some now =>
      simp only [lastReading, List.filterMap_cons_some reading, Option.map_some, Option.getD_some]
      rfl

/-- Readings that do not go back: none before `last`, and each at or after those before it. -/
def Steady (last : WithBot Int) (labels : List SyncLabel) : Prop :=
  (∀ now ∈ labels.filterMap SyncLabel.reading?, last ≤ (now : WithBot Int)) ∧
    (labels.filterMap SyncLabel.reading?).Pairwise (· ≤ ·)

theorem steady_cons {last : WithBot Int} {label : SyncLabel} {labels : List SyncLabel}
    (steady : Steady last (label :: labels)) : (∀ now ∈ label.reading?, last ≤ (now : WithBot Int)) ∧
      Steady ((label.reading?.map WithBot.some).getD last) labels := by
  obtain ⟨after, ordered⟩ := steady
  cases reading : label.reading? with
  | none =>
      rw [List.filterMap_cons_none reading] at after ordered
      exact ⟨fun now found => (by cases found), after, ordered⟩
  | some now =>
      rw [List.filterMap_cons_some reading] at after ordered
      obtain ⟨first, rest⟩ := List.pairwise_cons.mp ordered
      refine ⟨?_, ?_, rest⟩
      · intro later same
        exact after later (List.mem_cons.mpr (.inl (Option.some.inj same).symm))
      · exact fun later member => WithBot.coe_le_coe.mpr (first later member)

instance (system : StateSync) (label : SyncLabel) : Decidable (system.NoNews label) :=
  match label with
  | .merged now =>
      match phase : system.phase with
      | .folding anchor rows => decidable_of_iff (system.policy.RowsKnown anchor rows now) (by rw [NoNews, phase])
      | .idle => .isTrue (by rw [NoNews, phase]; trivial)
      | .writing _ _ => .isTrue (by rw [NoNews, phase]; trivial)
  | .evaluate _ _ _ | .drain _ | .stored _ _ | .failed => .isTrue trivial

/-- Related systems give the same decisions, and are related again at the end. -/
theorem mirrors_run {labels : List SyncLabel} {keys : Finset Identity} {system : StateSync}
    {memory : ThresholdPolicy} {last : WithBot Int}
    (mirrors : ThresholdPolicy.Mirrors keys system.policy memory last) (steady : Steady last labels)
    (members : ∀ call ∈ labels.filterMap SyncLabel.call?, memory.config.callKey call ∈ keys)
    (few : keys.card ≤ memory.config.maxTrackedIdentities) (news : EachStep step NoNews system labels) :
    system.decisions labels = memory.decisions (labels.filterMap SyncLabel.call?) ∧
      ThresholdPolicy.Mirrors keys (labels.foldl step system).policy
        ((labels.filterMap SyncLabel.call?).foldl ThresholdPolicy.afterCall memory) (lastReading last labels) := by
  induction labels generalizing system memory last with
  | nil => exact ⟨rfl, mirrors⟩
  | cons label labels ih =>
      obtain ⟨here, rest⟩ := eachStep_cons.mp news
      obtain ⟨reached, onward⟩ := steady_cons steady
      rw [lastReading_cons]
      cases called : label.call? with
      | none =>
          rw [List.filterMap_cons_none called] at members ⊢
          rw [decisions_sync system called]
          exact ih (mirrors_sync mirrors few called reached here) onward members few rest
      | some call =>
          rw [List.filterMap_cons_some called] at members ⊢
          obtain ⟨member, others⟩ := List.forall_mem_cons.mp members
          cases label with
          | drain _ | stored _ _ | failed | merged _ => cases called
          | evaluate action ctx now =>
              obtain rfl := Option.some.inj called
              have next := mirrors.evaluate (reached now rfl) member few
              have config := memory.evaluate_config action ctx now
              obtain ⟨decided, related⟩ := @ih (system.step (.evaluate action ctx now)) _ _ next onward
                (by rwa [ThresholdPolicy.afterCall, config]) (by rwa [ThresholdPolicy.afterCall, config]) rest
              refine ⟨?_, related⟩
              rw [decisions, ThresholdPolicy.decisions, decided, mirrors.decision_eq ⟨action, ctx, now⟩ (reached now rfl)]

/-- A policy with an empty store of its own. -/
def fresh (config : ThresholdConfig) : StateSync := ⟨⟨config, .empty, some ⟨[]⟩⟩, .idle, []⟩

/-- In every run in which no merge takes a row for new, the policy decides as it would
    without a store, and counts the same units in every window. -/
theorem private_store_decides_alike (config : ThresholdConfig) (labels : List SyncLabel)
    (steady : Steady ⊥ labels)
    (few : ((labels.filterMap SyncLabel.call?).map config.callKey).toFinset.card ≤ config.maxTrackedIdentities)
    (news : EachStep step NoNews (fresh config) labels) :
    (fresh config).decisions labels =
        (⟨config, .empty, none⟩ : ThresholdPolicy).decisions (labels.filterMap SyncLabel.call?) ∧
      ∀ (key : Identity) (now : Int), lastReading ⊥ labels ≤ (now : WithBot Int) →
        ((labels.foldl step (fresh config)).policy.history.window key).filter (recent (config.window : Int) now) =
          (((labels.filterMap SyncLabel.call?).foldl ThresholdPolicy.afterCall
            ⟨config, .empty, none⟩).history.window key).filter (recent (config.window : Int) now) := by
  have nothing : ∀ state, ThresholdPolicy.Orderly ((labels.filterMap SyncLabel.call?).map config.callKey).toFinset
      ⟨config, .empty, state⟩ ⊥ := by
    intro state
    refine ⟨?_, ?_, ?_⟩ <;> intro id <;> simp [History.window]
  have start : ThresholdPolicy.Mirrors ((labels.filterMap SyncLabel.call?).map config.callKey).toFinset
      (fresh config).policy ⟨config, .empty, none⟩ ⊥ := ⟨rfl, nothing _, nothing _, fun _ _ _ => rfl⟩
  have members : ∀ call ∈ labels.filterMap SyncLabel.call?,
      config.callKey call ∈ ((labels.filterMap SyncLabel.call?).map config.callKey).toFinset :=
    fun call member => List.mem_toFinset.mpr (List.mem_map_of_mem member)
  obtain ⟨decided, related⟩ := mirrors_run start steady members few news
  refine ⟨decided, fun key now reached => ?_⟩
  have agrees := related.agrees key now reached
  rwa [ThresholdPolicy.foldl_afterCall_config] at agrees

/-- One cycle of whole milliseconds: the row comes back as it was written. -/
def wholeMillis : List SyncLabel :=
  [.evaluate ThresholdPolicy.lockAction ThresholdPolicy.agent 0,
    .drain (.now (fromMillis 1) (fromMillis 1)),
    .stored ["ip:10.0.0.1"] (Sqlite.collect (Sqlite.select [("ip:10.0.0.1", 0)])),
    .merged (fromMillis 2),
    .evaluate ThresholdPolicy.lockAction ThresholdPolicy.agent (fromMillis 3)]

theorem private_store_decides_alike_whole_millis :
    (fresh ThresholdPolicy.minuteConfig).decisions wholeMillis = [.allow, .allow] ∧
      (fresh ThresholdPolicy.minuteConfig).decisions wholeMillis =
        (⟨ThresholdPolicy.minuteConfig, .empty, none⟩ : ThresholdPolicy).decisions
          (wholeMillis.filterMap SyncLabel.call?) := by
  refine ⟨by decide +kernel, (private_store_decides_alike ThresholdPolicy.minuteConfig wholeMillis ?_ ?_ ?_).1⟩
  · exact ⟨by decide +kernel, by decide +kernel⟩
  · decide +kernel
  · simp only [wholeMillis, eachStep_cons]
    exact ⟨trivial, trivial, trivial, by decide +kernel, trivial, eachStep_nil⟩

/-- Two units in a window of a minute. -/
def pairConfig : ThresholdConfig := { ThresholdPolicy.minuteConfig with maxPerWindow := 2 }

/-- One unit, flushed by a cycle at 0.9 ms and read back by a cycle at 1.2 ms. -/
def splitMillis : List SyncLabel :=
  [.evaluate ThresholdPolicy.lockAction ThresholdPolicy.agent 500000,
    .drain (.now 900000 900000),
    .stored ["ip:10.0.0.1"] (Sqlite.collect (Sqlite.select [("ip:10.0.0.1", 0)])),
    .merged 1000000,
    .drain (.now 1200000 1200000),
    .stored ["ip:10.0.0.1"] (Sqlite.collect (Sqlite.select [("ip:10.0.0.1", 0)])),
    .merged 1300000,
    .evaluate ThresholdPolicy.lockAction ThresholdPolicy.agent 2000000]

/-- The second cycle takes the unit's own row for a new one, and the next action is
    blocked where a policy without a store allows it. -/
theorem private_store_counts_twice :
    Steady ⊥ splitMillis ∧
      ((splitMillis.filterMap SyncLabel.call?).map pairConfig.callKey).toFinset.card ≤
        pairConfig.maxTrackedIdentities ∧
      EachStep step FromSqlite (fresh pairConfig) splitMillis ∧
      ((fresh pairConfig).decisions splitMillis).map Decision.isAllow = [true, false] ∧
      ((⟨pairConfig, .empty, none⟩ : ThresholdPolicy).decisions
        (splitMillis.filterMap SyncLabel.call?)).map Decision.isAllow = [true, true] := by
  refine ⟨⟨by decide +kernel, by decide +kernel⟩, by decide +kernel, ?_, by decide +kernel, by decide +kernel⟩
  simp only [splitMillis, eachStep_cons]
  exact ⟨trivial, trivial, by decide +kernel, trivial, trivial, by decide +kernel, trivial, trivial, eachStep_nil⟩

end StateSync

end AiProtect
