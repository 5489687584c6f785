import AiProtect.Lib.Runs
import AiProtect.Policy.Threshold
import Mathlib.Data.List.TakeWhile

/-! # When the activity index mirrors the history

Every operation of `History` keeps the index exact except `pruneStale`, which
leaves it alone on the argument that pruning never changes a window's last
timestamp. That argument fails for a window that expires as a whole, and the
theorem of this module says that it fails nowhere else: along a run of
evaluations and snapshot merges the index stays exact if and only if no
evaluation finds its window filled with expired timestamps only.
-/

namespace AiProtect

open RankIndex Runs

namespace History

/-- The activity index mirrors the tracked windows. -/
structure IndexInSync (history : History) : Prop where
  exact : ∀ activity id, toLex (activity, id) ∈ history.byActivity ↔
    ∃ timestamps, history.get id = some timestamps ∧ activityKey timestamps = activity
  tracked : ∀ id timestamps, history.get id = some timestamps →
    ∀ activity, toLex (activity, id) ∈ history.byActivity ↔ activity = activityKey timestamps
  untracked : ∀ id, history.get id = none → ∀ activity, toLex (activity, id) ∉ history.byActivity
  sameSize : history.byActivity.card = history.len

theorem indexInSync_iff {history : History} :
    history.IndexInSync ↔ Exact activityKey history.byIdentity history.byActivity := by
  constructor
  · intro sync
    exact sync.exact
  · intro exact
    exact ⟨exact, fun _ _ found _ => exact.rank_unique found,
      fun _ absent activity => exact.untracked (Finmap.lookup_eq_none.mp absent) activity, exact.card⟩

theorem indexInSync_empty : empty.IndexInSync := indexInSync_iff.mpr Exact.empty

theorem IndexInSync.ensure {history : History} (sync : history.IndexInSync) (id : Identity) :
    (history.ensure id).IndexInSync := by
  rw [indexInSync_iff] at sync ⊢
  simp only [History.ensure]
  cases found : history.get id with
  | some _ => exact sync
  | none => exact sync.insert_new (Finmap.lookup_eq_none.mp found) []

theorem IndexInSync.set {history : History} (sync : history.IndexInSync) (id : Identity)
    (timestamps : List Int) : (history.set id timestamps).IndexInSync := by
  rw [indexInSync_iff] at sync ⊢
  simp only [History.set]
  cases found : history.get id with
  | some old =>
      split
      · exact sync.erase found
      · exact sync.update found timestamps
  | none =>
      have absent : id ∉ history.byIdentity := Finmap.lookup_eq_none.mp found
      split
      · have unchanged : history.byIdentity.erase id = history.byIdentity := by
          apply Finmap.ext_lookup
          intro key
          rw [lookup_erase_ite]
          split
          · rename_i same
            rw [same]
            exact found.symm
          · rfl
        simpa only [unchanged] using sync
      · exact sync.insert_new absent timestamps

theorem IndexInSync.evict {history : History} {stalest : ActivityEntry} (sync : history.IndexInSync)
    (least : first history.byActivity = some stalest) :
    ({ byIdentity := history.byIdentity.erase (ofLex stalest).2
       byActivity := history.byActivity.erase stalest } : History).IndexInSync := by
  rw [indexInSync_iff] at sync ⊢
  obtain ⟨timestamps, found, activity⟩ := sync.first_tracked least
  have erased := sync.erase found
  rw [activity] at erased
  exact erased

theorem IndexInSync.evictLoop {targetLen fuel : Nat} {history : History} (sync : history.IndexInSync) :
    (evictLoop targetLen fuel history).IndexInSync := by
  induction fuel generalizing history with
  | zero => exact sync
  | succ fuel ih =>
      simp only [History.evictLoop]
      cases step : history.evictStalest targetLen with
      | none => exact sync
      | some next =>
          obtain ⟨stalest, least, rfl⟩ := evictStalest_eq_some step
          exact ih (sync.evict least)

theorem IndexInSync.evictStalestUntil {history : History} (sync : history.IndexInSync) (targetLen : Nat) :
    (history.evictStalestUntil targetLen).IndexInSync :=
  sync.evictLoop

theorem IndexInSync.mergeHistoryFromRows {history : History} (sync : history.IndexInSync)
    (anchor : Anchor) (rows : Snapshot) (width : Nat) (now : Int) :
    (mergeHistoryFromRows history anchor rows width now).IndexInSync := by
  simp only [AiProtect.mergeHistoryFromRows]
  induction rows.entries generalizing history with
  | nil => exact sync
  | cons row rest ih => exact ih (sync.set _ _)

/-- Dropping from the front moves the last timestamp exactly when nothing is left. -/
theorem activityKey_dropWhile {expired : Int → Bool} {timestamps : List Int} :
    activityKey (timestamps.dropWhile expired) = activityKey timestamps ↔
      (timestamps ≠ [] → ∃ t ∈ timestamps, expired t = false) := by
  constructor
  · intro same present
    by_contra none_left
    have emptied : timestamps.dropWhile expired = [] := by
      rw [List.dropWhile_eq_nil_iff]
      intro t member
      by_contra kept
      exact none_left ⟨t, member, by simpa using kept⟩
    rw [emptied] at same
    simp only [activityKey, List.getLast?_nil] at same
    exact present (List.getLast?_eq_none_iff.mp same.symm)
  · intro kept
    by_cases present : timestamps = []
    · rw [present, List.dropWhile_nil]
    · obtain ⟨t, member, live⟩ := kept present
      have left : timestamps.dropWhile expired ≠ [] := by
        rw [ne_eq, List.dropWhile_eq_nil_iff]
        intro all
        rw [all t member] at live
        cases live
      have last := (List.dropWhile_suffix expired : timestamps.dropWhile expired <:+ timestamps).getLast left
      simp only [activityKey, List.getLast?_eq_some_getLast left, last]
      exact (List.getLast?_eq_some_getLast present).symm

theorem IndexInSync.pruneStale_iff {history : History} (sync : history.IndexInSync) {id : Identity}
    {timestamps : List Int} (found : history.get id = some timestamps) (now : Int) (width : Nat) :
    (history.pruneStale id now width).IndexInSync ↔
      (timestamps ≠ [] → ∃ t ∈ timestamps, stale now width t = false) := by
  rw [indexInSync_iff] at sync ⊢
  simp only [History.pruneStale, found]
  exact (sync.insert_same_iff found _).trans activityKey_dropWhile

theorem activityKey_admit (timestamps : List Int) (now : Int) {count : Nat} (positive : 1 ≤ count) :
    activityKey (timestamps ++ List.replicate count now) = (now : WithBot Int) := by
  obtain ⟨rest, rfl⟩ : ∃ rest, count = rest + 1 := ⟨count - 1, by omega⟩
  simp only [activityKey, List.replicate_succ', ← List.append_assoc, List.getLast?_append,
    List.getLast?_singleton, Option.some_or]
  rfl

theorem IndexInSync.recordAdmitted {history : History} (sync : history.IndexInSync) {id : Identity}
    {timestamps : List Int} (found : history.get id = some timestamps) (now : Int) {count : Nat}
    (positive : 1 ≤ count) : (history.recordAdmitted id now count).IndexInSync := by
  rw [indexInSync_iff] at sync ⊢
  have last := activityKey_admit timestamps now positive
  simp only [History.recordAdmitted, found]
  by_cases current : activityKey timestamps = (now : WithBot Int)
  · simp only [current, ne_eq, not_true, if_false]
    exact (sync.insert_same_iff found _).mpr (last.trans current.symm)
  · simp only [current, ne_eq, not_false_iff, if_true]
    rw [← last]
    exact sync.update found _

end History

namespace ThresholdPolicy

open History

/-- What happens to one policy's history: a decision, or a store snapshot folded in. -/
inductive HistoryEvent where
  | evaluate (action : Action) (ctx : PolicyContext) (now : Int)
  | merge (anchor : Anchor) (rows : Snapshot) (now : Int)

def apply (policy : ThresholdPolicy) : HistoryEvent → ThresholdPolicy
  | .evaluate action ctx now => (policy.evaluate action ctx now).2
  | .merge anchor rows now => policy.foldSnapshot anchor rows now

/-- A decision that reaches the window of its key does not find that window
    non-empty and expired as a whole. -/
def KeepsActivity (policy : ThresholdPolicy) : HistoryEvent → Prop
  | .evaluate action ctx now =>
      policy.config.covers action.operation = true → action.blastRadius ≤ policy.config.maxPerRequest →
      policy.history.window (policy.config.historyKey ctx) ≠ [] →
        ∃ t ∈ policy.history.window (policy.config.historyKey ctx),
          durationSince now t ≤ policy.config.window
  | .merge _ _ _ => True

instance (policy : ThresholdPolicy) : (event : HistoryEvent) → Decidable (policy.KeepsActivity event)
  | .evaluate action ctx now => inferInstanceAs (Decidable
      (policy.config.covers action.operation = true → action.blastRadius ≤ policy.config.maxPerRequest →
        policy.history.window (policy.config.historyKey ctx) ≠ [] →
          ∃ t ∈ policy.history.window (policy.config.historyKey ctx),
            durationSince now t ≤ policy.config.window))
  | .merge _ _ _ => inferInstanceAs (Decidable True)

theorem indexInSync_makeRoom {policy : ThresholdPolicy} (sync : policy.history.IndexInSync)
    (key : Identity) : (policy.makeRoom key).IndexInSync := by
  simp only [makeRoom]
  split
  · exact sync
  · exact sync.evictStalestUntil _

/-- The history just before pruning: exact, and tracking `key` with its old window. -/
theorem ensured_spec {policy : ThresholdPolicy} (sync : policy.history.IndexInSync) (key : Identity) :
    ((policy.makeRoom key).ensure key).IndexInSync ∧
      ((policy.makeRoom key).ensure key).get key = some (policy.history.window key) := by
  refine ⟨(indexInSync_makeRoom sync key).ensure key, ?_⟩
  rw [get_ensure, if_pos rfl, window_makeRoom_self]

theorem not_stale_iff {now : Int} {width : Nat} {t : Int} :
    stale now width t = false ↔ durationSince now t ≤ width := by
  rw [stale, decide_eq_false_iff_not, not_lt]

theorem indexInSync_prepare_iff {policy : ThresholdPolicy} (sync : policy.history.IndexInSync)
    (key : Identity) (now : Int) : (policy.prepare key now).IndexInSync ↔
      (policy.history.window key ≠ [] →
        ∃ t ∈ policy.history.window key, durationSince now t ≤ policy.config.window) := by
  obtain ⟨ensured, found⟩ := ensured_spec sync key
  simpa only [prepare, not_stale_iff] using ensured.pruneStale_iff found now policy.config.window

/-- Admitting into a window that has just expired leaves its old index entry behind. -/
theorem not_indexInSync_admitted {policy : ThresholdPolicy} (sync : policy.history.IndexInSync)
    {key : Identity} {now : Int} (present : policy.history.window key ≠ [])
    (expired : ∀ t ∈ policy.history.window key, policy.config.window < durationSince now t)
    {count : Nat} (positive : 1 ≤ count) :
    ¬ ((policy.prepare key now).recordAdmitted key now count).IndexInSync := by
  obtain ⟨ensured, found⟩ := ensured_spec sync key
  intro after
  have emptied : policy.measured key now = [] := by
    rw [measured, List.dropWhile_eq_nil_iff]
    intro t member
    exact decide_eq_true (expired t member)
  have pruned : (policy.prepare key now).get key = some [] := by
    rw [prepare, get_pruneStale, if_pos rfl, found]
    exact congrArg some emptied
  have index : ((policy.prepare key now).recordAdmitted key now count).byActivity =
      insert (toLex ((now : WithBot Int), key)) ((policy.prepare key now).byActivity.erase (toLex (⊥, key))) := by
    have bottom : activityKey [] ≠ (now : WithBot Int) := WithBot.bot_ne_coe
    simp only [History.recordAdmitted, pruned, bottom, ne_eq, not_false_iff, if_true]
    rfl
  have same : (policy.prepare key now).byActivity = ((policy.makeRoom key).ensure key).byActivity := by
    simp only [prepare, pruneStale, found]
  have last := List.getLast_mem present
  have old : toLex (activityKey (policy.history.window key), key) ∈
      ((policy.prepare key now).recordAdmitted key now count).byActivity := by
    rw [index, same]
    apply Finset.mem_insert_of_mem
    rw [Finset.mem_erase, (ensured.tracked key _ found _), ne_eq, toLex_inj, Prod.mk.injEq]
    refine ⟨?_, rfl⟩
    rintro ⟨none_last, -⟩
    exact present (List.getLast?_eq_none_iff.mp none_last)
  have current : ((policy.prepare key now).recordAdmitted key now count).get key =
      some (List.replicate count now) := by
    rw [get_recordAdmitted, if_pos rfl, pruned]
    rfl
  have agree := (after.tracked key _ current _).mp old
  have atNow : activityKey (List.replicate count now) = (now : WithBot Int) := by
    simpa only [List.nil_append] using activityKey_admit [] now positive
  rw [atNow, activityKey, List.getLast?_eq_some_getLast present] at agree
  have equal : (policy.history.window key).getLast present = now := Option.some.inj agree
  have age := expired _ last
  rw [equal, durationSince] at age
  omega

theorem indexInSync_apply_iff {policy : ThresholdPolicy} (sync : policy.history.IndexInSync)
    (event : HistoryEvent) (positive : ∀ action ctx now, event = .evaluate action ctx now → 1 ≤ action.blastRadius) :
    (policy.apply event).history.IndexInSync ↔ policy.KeepsActivity event := by
  cases event with
  | merge anchor rows now =>
      exact iff_of_true ((sync.mergeHistoryFromRows anchor rows _ now).evictStalestUntil _) trivial
  | evaluate action ctx now =>
      have units : 1 ≤ action.blastRadius := positive action ctx now rfl
      simp only [apply, KeepsActivity]
      cases policy.evaluate_outcome action ctx now with
      | bypassed outside result =>
          rw [result, outside]
          exact iff_of_true sync (fun covered => Bool.noConfusion covered)
      | oversized covered large result =>
          rw [result]
          exact iff_of_true sync (fun _ small => absurd small (by omega))
      | overBudget covered small full result =>
          rw [result, indexInSync_prepare_iff sync]
          exact ⟨fun kept _ _ => kept, fun kept => kept covered small⟩
      | admitted covered small fits result =>
          rw [result]
          constructor
          · intro after _ _ present
            by_contra expired
            simp only [not_exists, not_and, not_le] at expired
            exact not_indexInSync_admitted sync present expired units after
          · intro kept
            have prepared := (indexInSync_prepare_iff sync _ now).mpr (kept covered small)
            obtain ⟨timestamps, found⟩ := Option.isSome_iff_exists.mp
              (policy.get_prepare_isSome (policy.config.historyKey ctx) now)
            exact prepared.recordAdmitted found now units

/-- Along any run of decisions (of at least one unit each) and snapshot merges from
    an empty history, the index is exact in every state if and only if no decision
    finds the window of its key non-empty and wholly expired. -/
theorem indexInSync_always_iff (config : ThresholdConfig) (state : Option PersistentState)
    (events : List HistoryEvent)
    (positive : ∀ action ctx now, .evaluate action ctx now ∈ events → 1 ≤ action.blastRadius) :
    Always apply (fun policy => policy.history.IndexInSync) ⟨config, .empty, state⟩ events ↔
      EachStep apply KeepsActivity ⟨config, .empty, state⟩ events := by
  refine always_iff_eachStep (show (History.empty).IndexInSync from indexInSync_empty) ?_
  intro policy sync event member
  apply indexInSync_apply_iff sync
  rintro action ctx now rfl
  exact positive action ctx now member

theorem indexInSync_always_within_window :
    Always apply (fun policy => policy.history.IndexInSync) ⟨minuteConfig, .empty, none⟩
      [.evaluate lockAction agent 0, .evaluate lockAction agent (fromSecs 60)] := by
  apply (indexInSync_always_iff minuteConfig none _ ?_).mpr
  · rw [eachStep_cons, eachStep_cons]
    exact ⟨by decide +kernel, by decide +kernel, eachStep_nil⟩
  · intro action ctx now member
    simp only [List.mem_cons, List.not_mem_nil, or_false] at member
    rcases member with same | same <;> cases same <;> decide

/-- Two decisions of one caller, the second after the first has expired: the index
    then holds two entries for the one identity that is tracked. -/
theorem indexInSync_fails_after_expiry :
    ¬ Always apply (fun policy => policy.history.IndexInSync) ⟨minuteConfig, .empty, none⟩
      [.evaluate lockAction agent 0, .evaluate lockAction agent (fromSecs 61)] := by
  intro always
  have last := (always _ (List.prefix_refl _)).sameSize
  revert last
  decide +kernel

end ThresholdPolicy

end AiProtect
