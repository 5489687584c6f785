import AiProtect.Policy.Merge
import AiProtect.Policy.StateSync

/-! # The bound on tracked identities

The guard of the eviction loop counts the tracked identities, its body takes
entries off the activity index. The loop reaches its target because every tracked
identity has an index entry, exact or outdated; that covering is weaker than
exactness and no operation breaks it. The bound on the number of tracked
identities, after every decision and every finished sync, follows.
-/

namespace AiProtect

open RankIndex Runs

namespace History

/-- A run of the eviction loop that ends at the guard: there is no rule for the
    `break` that an empty index would take. -/
inductive EvictsTo (targetLen : Nat) : History → History → Prop where
  | done {history : History} (small : history.len ≤ targetLen) : EvictsTo targetLen history history
  | pass {history final : History} (more : targetLen < history.len) {stalest : ActivityEntry}
      (least : first history.byActivity = some stalest)
      (rest : EvictsTo targetLen
        { byIdentity := history.byIdentity.erase (ofLex stalest).2
          byActivity := history.byActivity.erase stalest } final) : EvictsTo targetLen history final

theorem EvictsTo.len_le {targetLen : Nat} {history final : History}
    (run : EvictsTo targetLen history final) :
    final.len ≤ targetLen := by
  induction run with
  | done small => exact small
  | pass _ _ _ ih => exact ih

/-- Every tracked identity has an entry in the activity index, if not always the right one. -/
def Covered (history : History) : Prop := ∀ key, history.Indexed key

theorem covered_empty : empty.Covered := by
  intro key tracked
  exact absurd tracked Finmap.notMem_empty

theorem Covered.set {history : History} (covered : history.Covered) (id : Identity)
    (timestamps : List Int) :
    (history.set id timestamps).Covered :=
  fun key => (covered key).set id timestamps

/-- The rule for the other operations: whoever is tracked afterwards was tracked before or
    is `id`, which has an entry, and the entries of the others are kept. -/
theorem Covered.of_update {before after : History} (covered : before.Covered) (id : Identity)
    (tracked : ∀ key ≠ id, key ∈ after.byIdentity → key ∈ before.byIdentity)
    (kept : ∀ entry ∈ before.byActivity, (ofLex entry).2 ≠ id → entry ∈ after.byActivity)
    (own : after.Indexed id) : after.Covered := by
  intro key member
  by_cases same : key = id
  · subst same
    exact own member
  · obtain ⟨entry, inside, named⟩ := covered key (tracked key same member)
    refine ⟨entry, kept entry inside ?_, named⟩
    rw [named]
    exact same

theorem Covered.ensure {history : History} (covered : history.Covered) (id : Identity) :
    (history.ensure id).Covered := by
  simp only [History.ensure]
  split
  · exact covered
  · refine covered.of_update id ?_ ?_ ?_
    · intro key other member
      exact (Finmap.mem_insert.mp member).resolve_left other
    · intro entry inside _
      exact Finset.mem_insert_of_mem inside
    · intro _
      exact ⟨_, Finset.mem_insert_self _ _, rfl⟩

theorem Covered.pruneStale {history : History} (covered : history.Covered) (id : Identity)
    (now : Int) (width : Nat) : (history.pruneStale id now width).Covered := by
  simp only [History.pruneStale]
  split
  · rename_i entry found
    refine covered.of_update id ?_ (fun _ inside _ => inside) ?_
    · intro key other member
      exact (Finmap.mem_insert.mp member).resolve_left other
    · intro _
      exact covered id (Finmap.mem_of_lookup_eq_some found)
  · exact covered

theorem Covered.recordAdmitted {history : History} (covered : history.Covered) (id : Identity)
    (now : Int) (count : Nat) : (history.recordAdmitted id now count).Covered := by
  simp only [History.recordAdmitted]
  split
  · exact covered
  · rename_i entry found
    split
    · refine covered.of_update id ?_ ?_ ?_
      · intro key other member
        exact (Finmap.mem_insert.mp member).resolve_left other
      · intro indexed inside other
        refine Finset.mem_insert_of_mem (Finset.mem_erase.mpr ⟨?_, inside⟩)
        rintro rfl
        exact other rfl
      · intro _
        exact ⟨_, Finset.mem_insert_self _ _, rfl⟩
    · refine covered.of_update id ?_ (fun _ inside _ => inside) ?_
      · intro key other member
        exact (Finmap.mem_insert.mp member).resolve_left other
      · intro _
        exact covered id (Finmap.mem_of_lookup_eq_some found)

theorem Covered.evict {history : History} (covered : history.Covered) (stalest : ActivityEntry) :
    ({ byIdentity := history.byIdentity.erase (ofLex stalest).2
       byActivity := history.byActivity.erase stalest } : History).Covered := by
  refine covered.of_update (ofLex stalest).2 ?_ ?_ ?_
  · intro key _ member
    exact (Finmap.mem_erase.mp member).2
  · intro entry inside other
    refine Finset.mem_erase.mpr ⟨?_, inside⟩
    rintro rfl
    exact other rfl
  · intro member
    exact absurd rfl (Finmap.mem_erase.mp member).1

/-- A covered history with something to evict has an index entry to take. -/
theorem Covered.exists_first {history : History} (covered : history.Covered)
    (tracks : 0 < history.len) :
    ∃ stalest, first history.byActivity = some stalest := by
  obtain ⟨key, member⟩ := Finset.card_pos.mp tracks
  obtain ⟨entry, inside, -⟩ := covered key (Finmap.mem_keys.mp member)
  cases found : first history.byActivity with
  | some stalest => exact ⟨stalest, rfl⟩
  | none =>
      rw [first_eq_none.mp found] at inside
      exact absurd inside (Finset.notMem_empty entry)

theorem Covered.evictLoop {targetLen fuel : Nat} {history : History} (covered : history.Covered)
    (enough : history.byActivity.card ≤ fuel) :
    EvictsTo targetLen history (evictLoop targetLen fuel history) ∧ (evictLoop targetLen fuel history).Covered := by
  induction fuel generalizing history with
  | zero =>
      have nothing : history.len = 0 := by
        by_contra tracks
        obtain ⟨stalest, least⟩ := covered.exists_first (Nat.pos_of_ne_zero tracks)
        have inside := Finset.card_pos.mpr ⟨stalest, first_mem least⟩
        omega
      exact ⟨.done (by omega), covered⟩
  | succ fuel ih =>
      by_cases small : history.len ≤ targetLen
      · have stop : history.evictStalest targetLen = none := if_pos small
        simp only [History.evictLoop, stop]
        exact ⟨.done small, covered⟩
      · obtain ⟨stalest, least⟩ := covered.exists_first (by omega)
        have next : history.evictStalest targetLen = some
            { byIdentity := history.byIdentity.erase (ofLex stalest).2
              byActivity := history.byActivity.erase stalest } := by
          simp only [evictStalest, if_neg small, least]
        simp only [History.evictLoop, next]
        have fewer : (history.byActivity.erase stalest).card ≤ fuel := by
          rw [Finset.card_erase_of_mem (first_mem least)]
          omega
        obtain ⟨rest, left⟩ := ih (covered.evict stalest) fewer
        exact ⟨.pass (by omega) least rest, left⟩

/-- The eviction loop of a covered history ends at its guard. -/
theorem Covered.evictsTo {history : History} (covered : history.Covered) (targetLen : Nat) :
    EvictsTo targetLen history (history.evictStalestUntil targetLen) :=
  (covered.evictLoop le_rfl).1

theorem Covered.evictStalestUntil {history : History} (covered : history.Covered)
    (targetLen : Nat) :
    (history.evictStalestUntil targetLen).Covered :=
  (covered.evictLoop le_rfl).2

theorem Covered.mergeHistoryFromRows {history : History} (covered : history.Covered)
    (anchor : Anchor) (rows : Snapshot) (width : Nat) (now : Int) :
    (mergeHistoryFromRows history anchor rows width now).Covered :=
  fun key => indexed_mergeHistoryFromRows anchor now width (covered key) rows

theorem covered_rowsIntoHistory (anchor : Anchor) (rows : Snapshot) (width : Nat) (now : Int) :
    (rowsIntoHistory anchor rows width now).Covered := by
  refine List.foldlRecOn rows.entries _ covered_empty fun history covered row _ => ?_
  simp only
  split
  · exact covered
  · exact covered.set _ _

theorem len_le_of_tracked {before after : History}
    (tracked : ∀ id, (after.get id).isSome = true → (before.get id).isSome = true) : after.len ≤ before.len := by
  refine Finset.card_le_card fun id member => ?_
  exact Finmap.mem_keys.mpr (Finmap.lookup_isSome.mp
    (tracked id (Finmap.lookup_isSome.mpr (Finmap.mem_keys.mp member))))

theorem len_ensure_le (history : History) (id : Identity) :
    (history.ensure id).len ≤ history.len + 1 := by
  simp only [History.ensure]
  split
  · exact Nat.le_succ _
  · simp only [len, keys_insert]
    exact Finset.card_insert_le id _

end History

namespace ThresholdPolicy

open History

/-- What `ThresholdPolicy::new` gets from `state_db`: no store (none is configured, or it
    does not open), a store that starts with an empty history (Valkey, or SQLite when the
    load fails), or SQLite's rows. -/
inductive StateDb where
  | absent
  | unread
  | loaded (anchor : Anchor) (rows : Snapshot) (now : Int)

def new (config : ThresholdConfig) : StateDb → ThresholdPolicy
  | .absent => ⟨config, .empty, none⟩
  | .unread => ⟨config, .empty, some ⟨[]⟩⟩
  | .loaded anchor rows now =>
      ⟨config, (rowsIntoHistory anchor rows config.window now).evictStalestUntil config.maxTrackedIdentities,
        some ⟨[]⟩⟩

/-- The covering, and the bound that holds between any two calls. -/
structure WithinCapacity (policy : ThresholdPolicy) : Prop where
  covered : policy.history.Covered
  bounded : policy.history.len ≤ max 1 policy.config.maxTrackedIdentities

theorem withinCapacity_new (config : ThresholdConfig) (db : StateDb) :
    (new config db).WithinCapacity := by
  cases db with
  | absent | unread => exact ⟨covered_empty, Nat.zero_le _⟩
  | loaded anchor rows now =>
      have covered := covered_rowsIntoHistory anchor rows config.window now
      refine ⟨covered.evictStalestUntil _, le_trans (covered.evictsTo _).len_le (le_max_right _ _)⟩

theorem covered_makeRoom {policy : ThresholdPolicy} (covered : policy.history.Covered)
    (key : Identity) :
    (policy.makeRoom key).Covered := by
  simp only [makeRoom]
  split
  · exact covered
  · exact covered.evictStalestUntil _

theorem len_prepare_le {policy : ThresholdPolicy} (within : policy.WithinCapacity) (key : Identity)
    (now : Int) :
    (policy.prepare key now).len ≤ max 1 policy.config.maxTrackedIdentities := by
  have pruned : (policy.prepare key now).len ≤ ((policy.makeRoom key).ensure key).len := by
    apply len_le_of_tracked
    intro id found
    rw [prepare, get_pruneStale] at found
    split at found
    · rename_i same
      rw [same]
      simpa using found
    · exact found
  refine le_trans pruned ?_
  simp only [makeRoom, containsKey_eq]
  split
  · rename_i tracked
    obtain ⟨entry, found⟩ := Option.isSome_iff_exists.mp tracked
    simp only [History.ensure, found]
    exact within.bounded
  · have room := (within.covered.evictsTo (policy.config.maxTrackedIdentities - 1)).len_le
    have one_more := len_ensure_le (policy.history.evictStalestUntil (policy.config.maxTrackedIdentities - 1)) key
    omega

theorem WithinCapacity.evaluate {policy : ThresholdPolicy} (within : policy.WithinCapacity)
    (action : Action)
    (ctx : PolicyContext) (now : Int) : (policy.evaluate action ctx now).2.WithinCapacity := by
  have prepared : (policy.prepare (policy.config.historyKey ctx) now).Covered :=
    ((covered_makeRoom within.covered _).ensure _).pruneStale _ _ _
  have bounded := len_prepare_le within (policy.config.historyKey ctx) now
  cases policy.evaluate_outcome action ctx now with
  | bypassed _ result | oversized _ _ result =>
      rw [result]
      exact within
  | overBudget _ _ _ result =>
      rw [result]
      exact ⟨prepared, bounded⟩
  | admitted _ _ _ result =>
      rw [result]
      refine ⟨prepared.recordAdmitted _ _ _, le_trans (len_le_of_tracked ?_) bounded⟩
      intro id found
      rw [get_recordAdmitted] at found
      split at found
      · rename_i same
        rw [same]
        simpa using found
      · exact found

theorem WithinCapacity.foldSnapshot {policy : ThresholdPolicy} (within : policy.WithinCapacity)
    (anchor : Anchor)
    (rows : Snapshot) (now : Int) : (policy.foldSnapshot anchor rows now).WithinCapacity ∧
      (policy.foldSnapshot anchor rows now).history.len ≤ policy.config.maxTrackedIdentities := by
  have covered := within.covered.mergeHistoryFromRows anchor rows policy.config.window now
  have bounded := (covered.evictsTo policy.config.maxTrackedIdentities).len_le
  exact ⟨⟨covered.evictStalestUntil _, le_trans bounded (le_max_right _ _)⟩, bounded⟩

end ThresholdPolicy

namespace StateSync

open History ThresholdPolicy

theorem withinCapacity_step {system : StateSync} (within : system.policy.WithinCapacity)
    (label : SyncLabel) :
    (system.step label).policy.WithinCapacity := by
  have move := system.policyStep label
  generalize (system.step label).policy = after at move
  cases move with
  | evaluated => exact within.evaluate _ _ _
  | folded _ => exact (within.foldSnapshot _ _ _).1
  | kept history config =>
      refine ⟨?_, ?_⟩
      · rw [history]
        exact within.covered
      · rw [history, config]
        exact within.bounded

theorem config_step (system : StateSync) (label : SyncLabel) :
    (system.step label).policy.config = system.policy.config := by
  have move := system.policyStep label
  generalize (system.step label).policy = after at move
  cases move with
  | evaluated => exact evaluate_config _ _ _ _
  | folded _ => rfl
  | kept _ config => exact config

/-- A policy as `new` leaves it, in front of a store with this table. -/
def started (config : ThresholdConfig) (db : StateDb) (table : List Sqlite.Row) : StateSync :=
  ⟨.new config db, .idle, table⟩

/-- What a step has to leave: at most `limit` identities, but room for one, after a
    decision, and at most `limit` after the last step of a successful sync. -/
def LeavesWithin (limit : Nat) (system : StateSync) (label : SyncLabel) : Prop :=
  match label, system.phase with
  | .evaluate _ _ _, _ => (system.step label).policy.history.len ≤ max 1 limit
  | .merged _, .folding _ _ => (system.step label).policy.history.len ≤ limit
  | _, _ => True

theorem leavesWithin {system : StateSync} (within : system.policy.WithinCapacity)
    (label : SyncLabel) :
    system.LeavesWithin system.policy.config.maxTrackedIdentities label := by
  cases label with
  | evaluate action ctx now =>
      have bounded := (withinCapacity_step within (.evaluate action ctx now)).bounded
      rw [config_step] at bounded
      exact bounded
  | merged now =>
      cases found : system.phase with
      | folding anchor rows =>
          simp only [LeavesWithin, step, found]
          exact (within.foldSnapshot anchor rows now).2
      | idle | writing _ _ => simp only [LeavesWithin, found]
  | drain _ | stored _ _ | failed => trivial

theorem always_withinCapacity (config : ThresholdConfig) (db : StateDb) (table : List Sqlite.Row)
    (labels : List SyncLabel) :
    Always step (fun system => system.policy.WithinCapacity ∧ system.policy.config = config)
      (started config db table) labels := by
  refine always_of_step ⟨withinCapacity_new config db, ?_⟩ ?_
  · cases db <;> rfl
  · rintro system label ⟨within, same⟩
    exact ⟨withinCapacity_step within label, (config_step system label).trans same⟩

/-- From an empty or a loaded history, along every run of decisions and syncs: a decision
    leaves at most the configured number of identities, but one in any case, and a finished
    sync the configured number. Every eviction ends at the guard of its loop. -/
theorem capacity_bound (config : ThresholdConfig) (db : StateDb) (table : List Sqlite.Row)
    (labels : List SyncLabel) :
    EachStep step (LeavesWithin config.maxTrackedIdentities) (started config db table) labels ∧
      (∀ anchor rows now targetLen, EvictsTo targetLen (rowsIntoHistory anchor rows config.window now)
        ((rowsIntoHistory anchor rows config.window now).evictStalestUntil targetLen)) ∧
      Always step (fun system => ∀ targetLen,
          EvictsTo targetLen system.policy.history (system.policy.history.evictStalestUntil targetLen) ∧
          ∀ anchor rows now, EvictsTo targetLen
            (mergeHistoryFromRows system.policy.history anchor rows config.window now)
            ((mergeHistoryFromRows system.policy.history anchor rows config.window now).evictStalestUntil
              targetLen))
        (started config db table) labels := by
  have always := always_withinCapacity config db table labels
  refine ⟨?_, ?_, ?_⟩
  · intro before label inside
    obtain ⟨within, same⟩ := always.before before label inside
    have leaves := leavesWithin within label
    rw [same] at leaves
    exact leaves
  · intro anchor rows now targetLen
    exact (covered_rowsIntoHistory anchor rows config.window now).evictsTo targetLen
  · intro before inside targetLen
    have covered := (always before inside).1.covered
    refine ⟨covered.evictsTo targetLen, ?_⟩
    intro anchor rows now
    exact (covered.mergeHistoryFromRows anchor rows config.window now).evictsTo targetLen

end StateSync

end AiProtect
