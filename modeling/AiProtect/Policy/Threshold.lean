import AiProtect.Lib.Window
import AiProtect.Policy.History
import AiProtect.Store.Anchor
import Mathlib.Data.List.Sort

/-! # The blast-radius threshold policy

`ThresholdPolicy` with its decision (`evaluate`), the three steps of a state
sync (`drain`, the store's answer, `foldSnapshot`) and the two ways a store's
snapshot becomes history (`mergeHistoryFromRows`, `rowsIntoHistory`). Clock
readings taken inside a function are arguments here.
-/

namespace AiProtect

inductive ThresholdScope where
  | perIdentity
  | global
  deriving DecidableEq, Repr

/-- The history key of every action under `ThresholdScope.global`. -/
def globalHistoryKey : Identity := ⟨"\x00ai-protect:global\x00"⟩

structure ThresholdConfig where
  maxPerRequest : Nat
  maxPerWindow : Nat
  scope : ThresholdScope
  window : Nat
  maxTrackedIdentities : Nat
  operations : Option (List OperationKind)
  deriving DecidableEq, Repr

namespace ThresholdConfig

/-- Whether the policy's operations filter lets it see an action of this kind. -/
def covers (config : ThresholdConfig) (operation : OperationKind) : Bool :=
  match config.operations with
  | none => true
  | some operations => operations.contains operation

def historyKey (config : ThresholdConfig) (ctx : PolicyContext) : Identity :=
  match config.scope with
  | .perIdentity => ctx.identity
  | .global => globalHistoryKey

def scopeLabel (config : ThresholdConfig) : String :=
  match config.scope with
  | .perIdentity => "matching actions"
  | .global => "matching actions across all identities"

def requestReason (config : ThresholdConfig) (action : Action) : String :=
  s!"blast radius {action.blastRadius} exceeds per-request limit {config.maxPerRequest}"

def windowReason (config : ThresholdConfig) (windowLen : Nat) : String :=
  s!"{windowLen} {config.scopeLabel} in the last {debugDuration config.window} would exceed window limit {config.maxPerWindow}"

end ThresholdConfig

/-- The buffer of units admitted since the last flush to the state store. -/
structure PersistentState where
  pending : List (Identity × Int)
  deriving DecidableEq, Repr

structure ThresholdPolicy where
  config : ThresholdConfig
  history : History
  state : Option PersistentState

/-- The accumulator of a merge: the milliseconds already counted, and the window so far. -/
structure MergeState where
  seenMillis : Finset Int
  merged : List Int

def mergeExisting (anchor : Anchor) (now : Int) (window : Nat) (existing : List Int) : MergeState :=
  let kept := existing.filter fun instant => decide (durationSince now instant ≤ window)
  { seenMillis := (kept.map anchor.toEpochMillis).toFinset, merged := kept }

def mergeRow (anchor : Anchor) (now : Int) (window : Nat) (state : MergeState) (epochMillis : Int) :
    MergeState :=
  if epochMillis ∈ state.seenMillis then state
  else
    let seenMillis := insert epochMillis state.seenMillis
    match anchor.toInstant epochMillis with
    | some instant =>
        if durationSince now instant ≤ window then { seenMillis, merged := state.merged ++ [instant] }
        else { state with seenMillis := seenMillis.erase epochMillis }
    | none => { state with seenMillis := seenMillis.erase epochMillis }

/-- The window one identity gets from its local timestamps and its stored rows. -/
def mergeWindow (anchor : Anchor) (now : Int) (window : Nat) (existing rows : List Int) : List Int :=
  (rows.foldl (mergeRow anchor now window) (mergeExisting anchor now window existing)).merged.insertionSort
    (· ≤ ·)

def mergeIdentity (anchor : Anchor) (now : Int) (window : Nat) (history : History)
    (row : Sigma fun _ : String => List Int) : History :=
  history.set ⟨row.1⟩ (mergeWindow anchor now window (history.window ⟨row.1⟩) row.2)

def mergeHistoryFromRows (history : History) (anchor : Anchor) (rows : Snapshot) (window : Nat)
    (now : Int) : History :=
  rows.entries.foldl (mergeIdentity anchor now window) history

/-- The timestamps a fresh history gets from one identity's stored rows. -/
def loadWindow (anchor : Anchor) (now : Int) (window : Nat) (rows : List Int) : List Int :=
  ((rows.filterMap anchor.toInstant).filter fun instant =>
    decide (durationSince now instant ≤ window)).insertionSort (· ≤ ·)

def rowsIntoHistory (anchor : Anchor) (rows : Snapshot) (window : Nat) (now : Int) : History :=
  rows.entries.foldl (fun history row =>
    let instants := loadWindow anchor now window row.2
    if instants.isEmpty then history else history.set ⟨row.1⟩ instants) History.empty

namespace ThresholdPolicy

/-- Make room for `key` if it is not tracked yet. -/
def makeRoom (policy : ThresholdPolicy) (key : Identity) : History :=
  if policy.history.containsKey key then policy.history
  else policy.history.evictStalestUntil (policy.config.maxTrackedIdentities - 1)

/-- The history on which the window of `key` is measured. -/
def prepare (policy : ThresholdPolicy) (key : Identity) (now : Int) : History :=
  ((policy.makeRoom key).ensure key).pruneStale key now policy.config.window

/-- One queue entry for each unit of blast radius, when there is a state store. -/
def enqueue (policy : ThresholdPolicy) (key : Identity) (now : Int) (count : Nat) :
    Option PersistentState :=
  policy.state.map fun state => ⟨state.pending ++ List.replicate count (key, now)⟩

def evaluate (policy : ThresholdPolicy) (action : Action) (ctx : PolicyContext) (now : Int) :
    Decision × ThresholdPolicy :=
  if policy.config.covers action.operation = false then (.allow, policy)
  else if policy.config.maxPerRequest < action.blastRadius then
    (.block (policy.config.requestReason action), policy)
  else
    let key := policy.config.historyKey ctx
    let history := policy.prepare key now
    let windowLen := history.windowLen key
    if policy.config.maxPerWindow < addUsize windowLen action.blastRadius then
      (.block (policy.config.windowReason windowLen), { policy with history })
    else
      (.allow, { policy with
        history := history.recordAdmitted key now action.blastRadius
        state := policy.enqueue key now action.blastRadius })

/-- The first step of `sync_once`: take the queued units as store rows. -/
def drain (policy : ThresholdPolicy) (anchor : Anchor) : List (String × Int) × ThresholdPolicy :=
  match policy.state with
  | none => ([], policy)
  | some state =>
      (state.pending.map fun unit => (unit.1.name, anchor.toEpochMillis unit.2),
        { policy with state := some ⟨[]⟩ })

/-- The age limit `sync_once` sends along with the drained rows. -/
def cutoff (policy : ThresholdPolicy) (anchor : Anchor) : Int :=
  anchor.epochMillisBefore policy.config.window

/-- The last step of a successful `sync_once`. -/
def foldSnapshot (policy : ThresholdPolicy) (anchor : Anchor) (rows : Snapshot) (now : Int) :
    ThresholdPolicy :=
  { policy with
    history := (mergeHistoryFromRows policy.history anchor rows policy.config.window now).evictStalestUntil
      policy.config.maxTrackedIdentities }

end ThresholdPolicy

namespace History

open SlidingWindow

theorem stale_eq_not_recent (now : Int) (width : Nat) :
    stale now width = fun time => !recent (width : Int) now time := by
  funext time
  rw [Bool.eq_iff_iff, Bool.not_eq_true', stale, recent, decide_eq_true_eq, decide_eq_false_iff_not,
    ← durationSince_le_iff, not_le]

theorem recent_eq (now : Int) (width : Nat) :
    (fun instant => decide (durationSince now instant ≤ width)) = recent (width : Int) now := by
  funext instant
  rw [Bool.eq_iff_iff, recent, decide_eq_true_eq, decide_eq_true_eq, durationSince_le_iff]

end History

namespace ThresholdPolicy

open SlidingWindow

/-- What is left of the window of `key` when the call at `now` measures it. -/
def measured (policy : ThresholdPolicy) (key : Identity) (now : Int) : List Int :=
  (policy.history.window key).dropWhile (History.stale now policy.config.window)

theorem measured_of_sorted {policy : ThresholdPolicy} {key : Identity}
    (sorted : (policy.history.window key).Pairwise (· ≤ ·)) (now : Int) :
    policy.measured key now = (policy.history.window key).filter (recent (policy.config.window : Int) now) := by
  rw [measured, History.stale_eq_not_recent]
  exact dropWhile_sorted sorted

theorem window_makeRoom_self (policy : ThresholdPolicy) (key : Identity) :
    (policy.makeRoom key).window key = policy.history.window key := by
  simp only [makeRoom, History.containsKey_eq]
  split
  · rfl
  · rename_i untracked
    have absent : policy.history.get key = none := by simpa using untracked
    simp only [History.window, History.evictStalestUntil, absent, History.get_evictLoop_none absent]

/-- Eviction never touches the window that is about to be measured. -/
theorem window_prepare_self (policy : ThresholdPolicy) (key : Identity) (now : Int) :
    (policy.prepare key now).window key = policy.measured key now := by
  rw [prepare, History.window_pruneStale, if_pos rfl, History.window_ensure, window_makeRoom_self]
  rfl

theorem get_prepare_isSome (policy : ThresholdPolicy) (key : Identity) (now : Int) :
    ((policy.prepare key now).get key).isSome = true := by
  rw [prepare, History.get_pruneStale, if_pos rfl, History.get_ensure, if_pos rfl]
  rfl

/-- The windows of other identities survive as long as nothing is evicted. -/
theorem window_prepare (policy : ThresholdPolicy) {key : Identity} (now : Int)
    (kept : (policy.makeRoom key).byIdentity = policy.history.byIdentity) (id : Identity) :
    (policy.prepare key now).window id =
      if id = key then policy.measured key now else policy.history.window id := by
  split
  · rename_i same
    rw [same, window_prepare_self]
  · rename_i other
    rw [prepare, History.window_pruneStale, if_neg other, History.window_ensure]
    simp only [History.window, History.get, kept]

/-- No identity has to go while the tracked ones and `key` are few enough. -/
theorem makeRoom_of_few {policy : ThresholdPolicy} {keys : Finset Identity} {key : Identity}
    (tracked : ∀ id, (policy.history.get id).isSome = true → id ∈ keys) (member : key ∈ keys)
    (few : keys.card ≤ policy.config.maxTrackedIdentities) : policy.makeRoom key = policy.history := by
  simp only [makeRoom, History.containsKey_eq]
  split
  · rfl
  · rename_i untracked
    apply History.evictStalestUntil_of_le
    have sub : policy.history.byIdentity.keys ⊆ keys.erase key := by
      intro id inside
      have found : (policy.history.get id).isSome = true :=
        Finmap.lookup_isSome.mpr (Finmap.mem_keys.mp inside)
      rw [Finset.mem_erase]
      refine ⟨?_, tracked id found⟩
      rintro rfl
      exact untracked found
    have fewer := Finset.card_le_card sub
    rw [Finset.card_erase_of_mem member] at fewer
    simp only [History.len]
    omega

theorem tracked_makeRoom {policy : ThresholdPolicy} {key id : Identity}
    (found : ((policy.makeRoom key).get id).isSome = true) : (policy.history.get id).isSome = true := by
  simp only [makeRoom] at found
  split at found
  · exact found
  · obtain ⟨entry, kept⟩ := Option.isSome_iff_exists.mp found
    rw [History.evictStalestUntil] at kept
    rw [History.get_evictLoop kept]
    rfl

theorem tracked_prepare {policy : ThresholdPolicy} {key id : Identity} {now : Int}
    (found : ((policy.prepare key now).get id).isSome = true) :
    id = key ∨ (policy.history.get id).isSome = true := by
  by_cases same : id = key
  · exact .inl same
  · rw [prepare, History.get_pruneStale, if_neg same, History.get_ensure, if_neg same] at found
    exact .inr (tracked_makeRoom found)

/-- The result of `evaluate`, by the branch that produced it. -/
inductive Outcome (policy : ThresholdPolicy) (action : Action) (ctx : PolicyContext) (now : Int) : Prop where
  | bypassed (outside : policy.config.covers action.operation = false)
      (result : policy.evaluate action ctx now = (.allow, policy))
  | oversized (covered : policy.config.covers action.operation = true)
      (large : policy.config.maxPerRequest < action.blastRadius)
      (result : policy.evaluate action ctx now = (.block (policy.config.requestReason action), policy))
  | overBudget (covered : policy.config.covers action.operation = true)
      (small : action.blastRadius ≤ policy.config.maxPerRequest)
      (full : policy.config.maxPerWindow <
        addUsize (policy.measured (policy.config.historyKey ctx) now).length action.blastRadius)
      (result : policy.evaluate action ctx now =
        (.block (policy.config.windowReason (policy.measured (policy.config.historyKey ctx) now).length),
          { policy with history := policy.prepare (policy.config.historyKey ctx) now }))
  | admitted (covered : policy.config.covers action.operation = true)
      (small : action.blastRadius ≤ policy.config.maxPerRequest)
      (fits : addUsize (policy.measured (policy.config.historyKey ctx) now).length action.blastRadius ≤
        policy.config.maxPerWindow)
      (result : policy.evaluate action ctx now =
        (.allow, { policy with
          history := (policy.prepare (policy.config.historyKey ctx) now).recordAdmitted
            (policy.config.historyKey ctx) now action.blastRadius
          state := policy.enqueue (policy.config.historyKey ctx) now action.blastRadius }))

theorem evaluate_outcome (policy : ThresholdPolicy) (action : Action) (ctx : PolicyContext) (now : Int) :
    Outcome policy action ctx now := by
  have len : (policy.prepare (policy.config.historyKey ctx) now).windowLen (policy.config.historyKey ctx) =
      (policy.measured (policy.config.historyKey ctx) now).length := by
    rw [History.windowLen_eq, window_prepare_self]
  cases covered : policy.config.covers action.operation with
  | false => exact .bypassed covered (by simp only [evaluate, covered, if_true])
  | true =>
      by_cases large : policy.config.maxPerRequest < action.blastRadius
      · exact .oversized covered large
          (by simp only [evaluate, covered, Bool.true_eq_false, if_false, large, if_true])
      · by_cases full : policy.config.maxPerWindow <
            addUsize (policy.measured (policy.config.historyKey ctx) now).length action.blastRadius
        · exact .overBudget covered (Nat.le_of_not_lt large) full
            (by simp only [evaluate, covered, Bool.true_eq_false, if_false, large, len, full, if_true])
        · exact .admitted covered (Nat.le_of_not_lt large) (Nat.le_of_not_lt full)
            (by simp only [evaluate, covered, Bool.true_eq_false, if_false, large, len, full])

theorem evaluate_config (policy : ThresholdPolicy) (action : Action) (ctx : PolicyContext) (now : Int) :
    (policy.evaluate action ctx now).2.config = policy.config := by
  cases policy.evaluate_outcome action ctx now with
  | bypassed _ result | oversized _ _ result | overBudget _ _ _ result | admitted _ _ _ result =>
      rw [result]

/-- A call starts to track at most its own key. -/
theorem tracked_evaluate {policy : ThresholdPolicy} {action : Action} {ctx : PolicyContext} {now : Int}
    {id : Identity} (found : ((policy.evaluate action ctx now).2.history.get id).isSome = true) :
    id = policy.config.historyKey ctx ∨ (policy.history.get id).isSome = true := by
  cases policy.evaluate_outcome action ctx now with
  | bypassed _ result | oversized _ _ result =>
      rw [result] at found
      exact .inr found
  | overBudget _ _ _ result =>
      rw [result] at found
      exact tracked_prepare found
  | admitted _ _ _ result =>
      rw [result] at found
      simp only [History.get_recordAdmitted] at found
      split at found
      · rename_i same
        exact .inl same
      · exact tracked_prepare found

/-- The history is looked at, behind the two early returns of `evaluate`. -/
def measures (policy : ThresholdPolicy) (action : Action) : Bool :=
  policy.config.covers action.operation && decide (action.blastRadius ≤ policy.config.maxPerRequest)

/-- Whether a covered action passes both limits, read off the state before the call. -/
def admits (policy : ThresholdPolicy) (action : Action) (ctx : PolicyContext) (now : Int) : Bool :=
  decide (action.blastRadius ≤ policy.config.maxPerRequest) &&
    decide (addUsize (policy.measured (policy.config.historyKey ctx) now).length action.blastRadius ≤
      policy.config.maxPerWindow)

theorem evaluate_isAllow (policy : ThresholdPolicy) (action : Action) (ctx : PolicyContext) (now : Int) :
    (policy.evaluate action ctx now).1.isAllow =
      (!policy.config.covers action.operation || policy.admits action ctx now) := by
  cases policy.evaluate_outcome action ctx now with
  | bypassed outside result => rw [result, outside]; rfl
  | oversized covered large result =>
      rw [result, covered, admits, decide_eq_false (by omega)]
      rfl
  | overBudget covered small full result =>
      rw [result, covered, admits, decide_eq_false (by omega : ¬ addUsize _ _ ≤ _), Bool.and_false]
      rfl
  | admitted covered small fits result =>
      rw [result, covered, admits, decide_eq_true small, decide_eq_true fits]
      rfl

/-- A call that does not get to the history leaves the policy as it is. -/
theorem evaluate_unmeasured {policy : ThresholdPolicy} {action : Action} (unread : policy.measures action = false)
    (ctx : PolicyContext) (now : Int) : (policy.evaluate action ctx now).2 = policy := by
  cases policy.evaluate_outcome action ctx now with
  | bypassed _ result | oversized _ _ result => rw [result]
  | overBudget covered small _ _ | admitted covered small _ _ =>
      rw [measures, covered, decide_eq_true small] at unread
      cases unread

/-- The units a decision records. -/
def recorded (policy : ThresholdPolicy) (action : Action) (ctx : PolicyContext) (now : Int) : Nat :=
  if policy.config.covers action.operation && policy.admits action ctx now then action.blastRadius else 0

/-- All that a decision does to the windows, as long as it evicts nobody. -/
theorem window_evaluate {policy : ThresholdPolicy} {action : Action} {ctx : PolicyContext} (now : Int)
    (kept : policy.measures action = true →
      (policy.makeRoom (policy.config.historyKey ctx)).byIdentity = policy.history.byIdentity) (id : Identity) :
    (policy.evaluate action ctx now).2.history.window id =
      if policy.measures action = true ∧ id = policy.config.historyKey ctx then
        policy.measured (policy.config.historyKey ctx) now ++
          List.replicate (policy.recorded action ctx now) now
      else policy.history.window id := by
  have decided := policy.evaluate_isAllow action ctx now
  cases policy.evaluate_outcome action ctx now with
  | bypassed outside result =>
      simp only [result, measures, outside, Bool.false_and, Bool.false_eq_true, false_and, if_false]
  | oversized covered large result =>
      have unread : policy.measures action = false := by
        rw [measures, decide_eq_false (by omega), Bool.and_false]
      simp only [result, unread, Bool.false_eq_true, false_and, if_false]
  | overBudget covered small full result =>
      have read : policy.measures action = true := by
        rw [measures, covered, decide_eq_true small, Bool.and_self]
      have refused : policy.admits action ctx now = false := by
        simpa only [result, covered, Decision.isAllow, Bool.not_true, Bool.false_or] using decided.symm
      simp only [result, read, true_and, window_prepare policy now (kept read), recorded, refused, Bool.and_false,
        Bool.false_eq_true, if_false, List.replicate_zero, List.append_nil]
  | admitted covered small fits result =>
      have read : policy.measures action = true := by
        rw [measures, covered, decide_eq_true small, Bool.and_self]
      have granted : policy.admits action ctx now = true := by
        simpa only [result, covered, Decision.isAllow, Bool.not_true, Bool.false_or] using decided.symm
      simp only [result, read, true_and, recorded, covered, granted, Bool.and_self, if_true,
        History.window_recordAdmitted (policy.get_prepare_isSome _ now), window_prepare policy now (kept read)]
      split <;> rfl

theorem merged_sublist_foldl (anchor : Anchor) (now : Int) (window : Nat) (rows : List Int) (state : MergeState) :
    state.merged.Sublist (rows.foldl (mergeRow anchor now window) state).merged := by
  induction rows generalizing state with
  | nil => exact List.Sublist.refl _
  | cons row rows ih =>
      refine List.Sublist.trans ?_ (ih (mergeRow anchor now window state row))
      simp only [mergeRow]
      split
      · exact List.Sublist.refl _
      · split
        · split
          · exact List.sublist_append_left _ _
          · exact List.Sublist.refl _
        · exact List.Sublist.refl _

/-- A merge only adds to what is still inside the local window. -/
theorem filter_subperm_mergeWindow (anchor : Anchor) (now : Int) (window : Nat) (existing rows : List Int) :
    (existing.filter (recent (window : Int) now)).Subperm (mergeWindow anchor now window existing rows) := by
  have kept := merged_sublist_foldl anchor now window rows (mergeExisting anchor now window existing)
  have start : (mergeExisting anchor now window existing).merged =
      existing.filter (recent (window : Int) now) := by
    simp only [mergeExisting, History.recent_eq]
  rw [start] at kept
  rw [mergeWindow]
  exact kept.subperm.trans (List.perm_insertionSort _ _).symm.subperm

/-- One unit of account locking. -/
def lockAction : Action := ⟨"ldap", .accountLock, "cn=alice,dc=example,dc=com", 1⟩

def agent : PolicyContext := ⟨⟨"ip:10.0.0.1"⟩⟩

def minuteConfig : ThresholdConfig := ⟨10, 50, .perIdentity, fromSecs 60, 100000, none⟩

end ThresholdPolicy

end AiProtect
