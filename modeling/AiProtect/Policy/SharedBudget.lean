import AiProtect.Policy.ExactWindow
import AiProtect.Policy.Merge
import AiProtect.Policy.StateSync

/-! # A budget shared through a store

Instance A admits actions and flushes them; instance B, which knows nothing of the
key, folds the store's snapshot in. B counts each millisecond once, while A, and a
restart that loads the same snapshot, count every unit.
-/

namespace AiProtect

/-- The snapshot has every flushed row, in some order. -/
def HoldsAll (rows : Snapshot) (flushed : List Sqlite.Row) : Prop :=
  ∀ identity, ((rows.lookup identity).getD []).Perm (Sqlite.timestamps flushed identity)

theorem Sqlite.Answers.holdsAll {rows : Snapshot} {table : List Sqlite.Row} (answers : Sqlite.Answers rows table) :
    HoldsAll rows table := by
  intro identity
  have found : rows.lookup identity = (Sqlite.collect (Sqlite.select table)).lookup identity :=
    AList.perm_lookup answers
  have perm := Sqlite.timestamps_select_perm table identity
  rw [found, Sqlite.collect, Sqlite.lookup_foldl_pushRow]
  split
  · rename_i nothing
    rw [nothing] at perm
    simpa using perm
  · simpa using perm

namespace ThresholdPolicy

/-- The blast radius admitted under `key` over a list of calls. -/
def admittedRadius (policy : ThresholdPolicy) (key : Identity) : List Call → Nat
  | [] => 0
  | call :: calls =>
      (if policy.config.covers call.action.operation = true ∧ policy.config.callKey call = key ∧
          (policy.evaluate call.action call.ctx call.now).1.isAllow = true then call.action.blastRadius else 0) +
        (policy.afterCall call).admittedRadius key calls

/-- The rows a flush at `anchor` writes for `key`. -/
def published (policy : ThresholdPolicy) (anchor : Anchor) (key : Identity) : List Int :=
  (policy.pending.filter fun unit => unit.1 = key).map fun unit => anchor.toEpochMillis unit.2

theorem timestamps_drain (policy : ThresholdPolicy) (anchor : Anchor) (key : Identity) :
    Sqlite.timestamps (policy.drain anchor).1 key.name = policy.published anchor key := by
  simp only [drain, published, pending]
  cases policy.state with
  | none => rfl
  | some state =>
      simp only [Option.elim_some, Sqlite.timestamps, List.filter_map, List.map_map]
      congr 1
      apply List.filter_congr
      intro unit _
      simp only [Function.comp_apply, decide_eq_decide]
      exact Identity.name_injective.eq_iff

theorem length_grants (policy : ThresholdPolicy) (call : Call) (key : Identity) :
    ((policy.grants call.action call.ctx call.now).filter fun unit => unit.1 = key).length =
      if policy.config.covers call.action.operation = true ∧ policy.config.callKey call = key ∧
        (policy.evaluate call.action call.ctx call.now).1.isAllow = true then call.action.blastRadius else 0 := by
  rw [policy.evaluate_isAllow call.action call.ctx call.now, grants]
  cases policy.config.covers call.action.operation with
  | false => simp
  | true =>
      cases policy.admits call.action call.ctx call.now with
      | false => simp
      | true =>
          by_cases mine : policy.config.historyKey call.ctx = key
          · simp [ThresholdConfig.callKey, mine]
          · simp [ThresholdConfig.callKey, mine]

/-- Every unit admitted under the key is waiting to be flushed. -/
theorem length_pending_calls {policy : ThresholdPolicy} (persistent : policy.state.isSome = true) (key : Identity)
    (calls : List Call) :
    ((calls.foldl afterCall policy).pending.filter fun unit => unit.1 = key).length =
      (policy.pending.filter fun unit => unit.1 = key).length + policy.admittedRadius key calls := by
  induction calls generalizing policy with
  | nil => rfl
  | cons call calls ih =>
      obtain ⟨queued, still⟩ := pending_evaluate persistent call.action call.ctx call.now
      have rest := @ih (policy.afterCall call) still
      rw [List.foldl_cons, rest]
      simp only [admittedRadius, afterCall, queued, List.filter_append, List.length_append, length_grants]
      omega

/-- The timestamps of an untracked key after a successful sync: one for each distinct
    millisecond inside the window, unless the identity cap removes the key again. -/
theorem length_window_foldSnapshot {policy : ThresholdPolicy} {key : Identity}
    (untracked : policy.history.get key = none) (anchor : Anchor) {rows : Snapshot} {timestamps : List Int}
    (found : rows.lookup key.name = some timestamps) (now : Int) :
    ((policy.foldSnapshot anchor rows now).history.window key).length =
      if ((mergeHistoryFromRows policy.history anchor rows policy.config.window now).notStaler key).card ≤
          policy.config.maxTrackedIdentities then
        (timestamps.filter (placed anchor now policy.config.window)).toFinset.card else 0 := by
  have nothing : policy.history.window key = [] := by
    rw [History.window, untracked]
    rfl
  have merged : (mergeHistoryFromRows policy.history anchor rows policy.config.window now).window key =
      mergeWindow anchor now policy.config.window [] timestamps := by
    rw [window_mergeHistoryFromRows, found, nothing]
    rfl
  rw [← length_mergeWindow_nil, ← merged]
  simp only [foldSnapshot]
  rw [History.window_evictStalestUntil]
  generalize joined : mergeHistoryFromRows policy.history anchor rows policy.config.window now = history
  by_cases tracked : key ∈ history.byIdentity
  · have indexed : history.Indexed key := by
      rw [← joined]
      refine indexed_mergeHistoryFromRows anchor now _ (fun before => ?_) rows
      rw [← Finmap.lookup_isSome] at before
      rw [History.get] at untracked
      rw [untracked] at before
      cases before
    have spared := History.tracked_evictLoop_iff policy.config.maxTrackedIdentities
      (le_refl history.byActivity.card) tracked (indexed tracked)
    rw [← History.evictStalestUntil] at spared
    by_cases fits : (history.notStaler key).card ≤ policy.config.maxTrackedIdentities
    · rw [if_pos fits, if_pos (spared.mpr fits)]
    · rw [if_neg fits, if_neg (fun kept => fits (spared.mp kept))]
      rfl
  · have absent : history.get key = none := Finmap.lookup_eq_none.mpr tracked
    have empty : history.window key = [] := by
      rw [History.window, absent]
      rfl
    rw [empty]
    split <;> split <;> rfl

theorem window_foldSnapshot_none {policy : ThresholdPolicy} {key : Identity}
    (untracked : policy.history.get key = none) (anchor : Anchor) {rows : Snapshot}
    (absent : rows.lookup key.name = none) (now : Int) :
    (policy.foldSnapshot anchor rows now).history.window key = [] := by
  have nothing : policy.history.window key = [] := by
    rw [History.window, untracked]
    rfl
  simp only [foldSnapshot]
  rw [History.window_evictStalestUntil, window_mergeHistoryFromRows, absent, Option.elim_none, nothing, ite_self]

/-- B's window for the key has as many timestamps as A admitted units, and as many as a
    restart would load. -/
def SameCount (a b : ThresholdPolicy) (calls : List Call) (anchor : Anchor) (rows : Snapshot) (now : Int)
    (key : Identity) : Prop :=
  ((b.foldSnapshot anchor rows now).history.window key).length = a.admittedRadius key calls ∧
    ((b.foldSnapshot anchor rows now).history.window key).length =
      ((rowsIntoHistory anchor rows b.config.window now).window key).length

/-- A's rows for the key differ pairwise, B places each inside the window, and B's cap
    leaves room for the key if there are any. -/
structure CountsOnce (a b : ThresholdPolicy) (anchorA anchorB : Anchor) (rows : Snapshot) (now : Int)
    (key : Identity) : Prop where
  distinct : (a.published anchorA key).Nodup
  inside : ∀ row ∈ a.published anchorA key, placed anchorB now b.config.window row = true
  spared : a.published anchorA key ≠ [] →
    ((mergeHistoryFromRows b.history anchorB rows b.config.window now).notStaler key).card ≤
      b.config.maxTrackedIdentities

theorem card_filter_eq_length_iff {p : Int → Bool} {rows : List Int} :
    (rows.filter p).toFinset.card = rows.length ↔ rows.Nodup ∧ ∀ row ∈ rows, p row = true := by
  constructor
  · intro same
    have fewer := (rows.filter p).toFinset_card_le
    have shorter := List.length_filter_le p rows
    have all : rows.filter p = rows := List.filter_eq_self.mpr
      (List.length_filter_eq_length_iff.mp (by omega))
    refine ⟨?_, List.filter_eq_self.mp all⟩
    rw [all] at same
    exact Multiset.coe_nodup.mp (Multiset.toFinset_card_eq_card_iff_nodup.mp same)
  · rintro ⟨distinct, all⟩
    rw [List.filter_eq_self.mpr all, List.toFinset_card_of_nodup distinct]

/-- All that A admits for a key is published by its next sync. -/
theorem length_published_calls {a : ThresholdPolicy} (empty : a.state = some ⟨[]⟩) (calls : List Call)
    (key : Identity) (anchor : Anchor) :
    ((calls.foldl afterCall a).published anchor key).length = a.admittedRadius key calls := by
  have persistent : a.state.isSome = true := by
    rw [empty]
    rfl
  have before : a.pending = [] := by
    simp only [pending, empty, Option.elim_some]
  rw [published, List.length_map, length_pending_calls persistent key calls, before, List.filter_nil,
    List.length_nil, Nat.zero_add]

theorem countsOnce_of_unpublished {a b : ThresholdPolicy} {anchorA anchorB : Anchor} {rows : Snapshot} {now : Int}
    {key : Identity} (nothing : a.published anchorA key = []) : CountsOnce a b anchorA anchorB rows now key where
  distinct := by
    rw [nothing]
    exact List.nodup_nil
  inside := by
    rw [nothing]
    exact fun row member => absurd member List.not_mem_nil
  spared := fun some => absurd nothing some

/-- A store that keeps every row passes A's admissions on to B with full multiplicity
    if and only if A's rows are `CountsOnce`. -/
theorem shared_budget_iff (a b : ThresholdPolicy) (empty : a.state = some ⟨[]⟩) (calls : List Call)
    (key : Identity) (anchorA anchorB : Anchor) (now : Int) (table : List Sqlite.Row) (rows : Snapshot)
    (unknown : Sqlite.timestamps table key.name = []) (untracked : b.history.get key = none)
    (unqueued : b.published anchorB key = [])
    (keeps : HoldsAll rows
      (table ++ ((calls.foldl afterCall a).drain anchorA).1 ++ (b.drain anchorB).1)) :
    SameCount a b calls anchorB rows now key ↔
      CountsOnce (calls.foldl afterCall a) b anchorA anchorB rows now key := by
  have perm := keeps key.name
  rw [Sqlite.timestamps_append, Sqlite.timestamps_append, unknown, timestamps_drain, timestamps_drain, unqueued,
    List.nil_append, List.append_nil] at perm
  rw [SameCount, window_rowsIntoHistory, ← length_published_calls empty calls key anchorA]
  cases found : rows.lookup key.name with
  | none =>
      simp only [found, Option.getD_none] at perm
      have nothing := List.nil_perm.mp perm
      rw [window_foldSnapshot_none untracked anchorB found, nothing]
      exact iff_of_true ⟨rfl, rfl⟩ (countsOnce_of_unpublished nothing)
  | some timestamps =>
      simp only [found, Option.getD_some] at perm
      rw [length_window_foldSnapshot untracked anchorB found, Option.elim_some, length_loadWindow, ← perm.length_eq]
      have counted := @card_filter_eq_length_iff (placed anchorB now b.config.window) timestamps
      constructor
      · rintro ⟨same, -⟩
        by_cases nothing : timestamps = []
        · rw [nothing] at perm
          exact countsOnce_of_unpublished (List.nil_perm.mp perm)
        · have positive := List.length_pos_of_ne_nil nothing
          split at same
          · rename_i fits
            obtain ⟨distinct, inside⟩ := counted.mp same
            exact ⟨perm.nodup_iff.mp distinct, fun row member => inside row (perm.mem_iff.mpr member), fun _ => fits⟩
          · omega
      · rintro ⟨distinct, inside, spared⟩
        have everything : ∀ row ∈ timestamps, placed anchorB now b.config.window row = true :=
          fun row member => inside row (perm.mem_iff.mp member)
        have count := counted.mpr ⟨perm.nodup_iff.mpr distinct, everything⟩
        rw [count, List.filter_eq_self.mpr everything]
        split
        · exact ⟨rfl, rfl⟩
        · rename_i evicted
          have nothing : timestamps = [] := by
            by_contra some
            refine evicted (spared fun none_published => some ?_)
            rw [none_published] at perm
            exact List.perm_nil.mp perm
          rw [nothing]
          exact ⟨rfl, rfl⟩

/-- Two units of one caller, admitted two milliseconds apart. -/
def spacedCalls : List Call := [⟨lockAction, agent, 0⟩, ⟨lockAction, agent, fromMillis 2⟩]

def sharedPolicy : ThresholdPolicy := ⟨minuteConfig, .empty, some ⟨[]⟩⟩

theorem shared_budget_spaced :
    SameCount sharedPolicy sharedPolicy spacedCalls (.now (fromMillis 4) (fromMillis 4))
      (Sqlite.collect (Sqlite.select [("ip:10.0.0.1", 0), ("ip:10.0.0.1", 2)])) (fromMillis 5) agent.identity := by
  refine (shared_budget_iff sharedPolicy sharedPolicy rfl spacedCalls agent.identity
    (.now (fromMillis 3) (fromMillis 3)) _ _ [] _ rfl rfl rfl ?_).mpr ?_
  · have flushed : [] ++ ((spacedCalls.foldl afterCall sharedPolicy).drain (.now (fromMillis 3) (fromMillis 3))).1 ++
        (sharedPolicy.drain (.now (fromMillis 4) (fromMillis 4))).1 = [("ip:10.0.0.1", 0), ("ip:10.0.0.1", 2)] := by
      decide +kernel
    rw [flushed]
    exact Sqlite.Answers.holdsAll (List.Perm.refl _)
  · exact ⟨by decide +kernel, by decide +kernel, by decide +kernel⟩

/-- One action of two units is one millisecond for B. -/
def doubleCall : List Call := [⟨{ lockAction with blastRadius := 2 }, agent, 0⟩]

/-- A admitted two units, both still inside the window; B counts one, a restart two. -/
theorem shared_budget_collapses :
    HoldsAll (Sqlite.collect (Sqlite.select [("ip:10.0.0.1", 0), ("ip:10.0.0.1", 0)]))
        (((doubleCall.foldl afterCall sharedPolicy).drain (.now (fromMillis 3) (fromMillis 3))).1 ++
          (sharedPolicy.drain (.now (fromMillis 4) (fromMillis 4))).1) ∧
      ¬ SameCount sharedPolicy sharedPolicy doubleCall (.now (fromMillis 4) (fromMillis 4))
        (Sqlite.collect (Sqlite.select [("ip:10.0.0.1", 0), ("ip:10.0.0.1", 0)])) (fromMillis 5) agent.identity ∧
      sharedPolicy.admittedRadius agent.identity doubleCall = 2 ∧
      ((rowsIntoHistory (.now (fromMillis 4) (fromMillis 4))
        (Sqlite.collect (Sqlite.select [("ip:10.0.0.1", 0), ("ip:10.0.0.1", 0)])) minuteConfig.window
        (fromMillis 5)).window agent.identity).length = 2 ∧
      ((sharedPolicy.foldSnapshot (.now (fromMillis 4) (fromMillis 4))
        (Sqlite.collect (Sqlite.select [("ip:10.0.0.1", 0), ("ip:10.0.0.1", 0)]))
        (fromMillis 5)).history.window agent.identity).length = 1 := by
  have flushed : ((doubleCall.foldl afterCall sharedPolicy).drain (.now (fromMillis 3) (fromMillis 3))).1 ++
      (sharedPolicy.drain (.now (fromMillis 4) (fromMillis 4))).1 = [("ip:10.0.0.1", 0), ("ip:10.0.0.1", 0)] := by
    decide +kernel
  refine ⟨?_, ?_, by decide +kernel, by decide +kernel, by decide +kernel⟩
  · rw [flushed]
    exact Sqlite.Answers.holdsAll (List.Perm.refl _)
  · rintro ⟨same, -⟩
    revert same
    decide +kernel

end ThresholdPolicy

end AiProtect
