import AiProtect.Core.Action
import AiProtect.Lib.RankIndex
import Mathlib.Data.List.Basic
import Mathlib.Order.WithBot

/-! # The sliding-window history

`History` keeps a window of timestamps per identity (`byIdentity`) and an index of
identities by last activity (`byActivity`), which eviction reads. Windows are
lists with the oldest timestamp first; `none` in the source's activity key is `⊥`.
-/

namespace AiProtect

open RankIndex

/-- An entry of the activity index: last activity, then identity. -/
abbrev ActivityEntry := WithBot Int ×ₗ Identity

structure History where
  byIdentity : Finmap fun _ : Identity => List Int
  byActivity : Finset ActivityEntry

namespace History

/-- The default history: nothing tracked, nothing indexed. -/
def empty : History := ⟨∅, ∅⟩

/-- The most recent timestamp of a window; `⊥` for an empty one. -/
def activityKey (timestamps : List Int) : WithBot Int := timestamps.getLast?

def len (history : History) : Nat := history.byIdentity.keys.card

def containsKey (history : History) (id : Identity) : Bool := decide (id ∈ history.byIdentity)

def get (history : History) (id : Identity) : Option (List Int) := history.byIdentity.lookup id

def windowLen (history : History) (id : Identity) : Nat := (history.get id).elim 0 List.length

def ensure (history : History) (id : Identity) : History :=
  match history.get id with
  | some _ => history
  | none =>
      { byIdentity := history.byIdentity.insert id []
        byActivity := insert (toLex (⊥, id)) history.byActivity }

/-- A timestamp older than the window. -/
def stale (now : Int) (window : Nat) (timestamp : Int) : Bool :=
  decide (window < durationSince now timestamp)

def pruneStale (history : History) (id : Identity) (now : Int) (window : Nat) : History :=
  match history.get id with
  | some entry =>
      { history with byIdentity := history.byIdentity.insert id (entry.dropWhile (stale now window)) }
  | none => history

def recordAdmitted (history : History) (id : Identity) (now : Int) (count : Nat) : History :=
  match history.get id with
  | none => history
  | some entry =>
      let oldKey := activityKey entry
      let byIdentity := history.byIdentity.insert id (entry ++ List.replicate count now)
      if oldKey ≠ (now : WithBot Int) then
        { byIdentity
          byActivity := insert (toLex ((now : WithBot Int), id))
            (history.byActivity.erase (toLex (oldKey, id))) }
      else { history with byIdentity }

def set (history : History) (id : Identity) (timestamps : List Int) : History :=
  let byActivity := match history.get id with
    | some old => history.byActivity.erase (toLex (activityKey old, id))
    | none => history.byActivity
  if timestamps.isEmpty then { byIdentity := history.byIdentity.erase id, byActivity }
  else
    { byIdentity := history.byIdentity.insert id timestamps
      byActivity := insert (toLex (activityKey timestamps, id)) byActivity }

/-- One pass of the eviction loop; `none` when the loop is left. -/
def evictStalest (history : History) (targetLen : Nat) : Option History :=
  if history.len ≤ targetLen then none
  else
    match first history.byActivity with
    | none => none
    | some stalest => some
        { byIdentity := history.byIdentity.erase (ofLex stalest).2
          byActivity := history.byActivity.erase stalest }

/-- The eviction loop for at most `fuel` passes. -/
def evictLoop (targetLen : Nat) : Nat → History → History
  | 0, history => history
  | fuel + 1, history =>
      match history.evictStalest targetLen with
      | none => history
      | some next => evictLoop targetLen fuel next

/-- Each pass removes one index entry, so the index bounds the number of passes. -/
def evictStalestUntil (history : History) (targetLen : Nat) : History :=
  evictLoop targetLen history.byActivity.card history

/-- The timestamps tracked for `id`; none for an untracked identity. -/
def window (history : History) (id : Identity) : List Int := (history.get id).getD []

section Lookup

variable (history : History) (id key : Identity)

theorem containsKey_eq : history.containsKey id = (history.get id).isSome := by
  rw [Bool.eq_iff_iff, containsKey, decide_eq_true_eq, get, Finmap.lookup_isSome]

theorem windowLen_eq : history.windowLen id = (history.window id).length := by
  simp only [windowLen, window]
  cases history.get id <;> rfl

@[simp] theorem get_empty : empty.get id = none := Finmap.lookup_empty id

theorem get_ensure : (history.ensure id).get key =
    if key = id then some (history.window id) else history.get key := by
  simp only [ensure, window]
  cases found : history.get id with
  | none => simp only [get, lookup_insert_ite, Option.getD_none]
  | some entry =>
      by_cases same : key = id
      · simp only [same, if_true, found, Option.getD_some]
      · simp only [same, if_false]

theorem get_pruneStale (now : Int) (width : Nat) : (history.pruneStale id now width).get key =
    if key = id then (history.get id).map (List.dropWhile (stale now width)) else history.get key := by
  simp only [pruneStale]
  cases found : history.get id with
  | some entry => simp only [get, lookup_insert_ite, Option.map_some]
  | none =>
      by_cases same : key = id
      · simp only [same, if_true, found, Option.map_none]
      · simp only [same, if_false]

theorem get_recordAdmitted (now : Int) (count : Nat) : (history.recordAdmitted id now count).get key =
    if key = id then (history.get id).map (· ++ List.replicate count now) else history.get key := by
  simp only [recordAdmitted]
  cases found : history.get id with
  | some entry =>
      by_cases current : activityKey entry = (now : WithBot Int)
      · simp only [current, ne_eq, not_true, if_false, get, lookup_insert_ite, Option.map_some]
      · simp only [current, ne_eq, not_false_iff, if_true, get, lookup_insert_ite, Option.map_some]
  | none =>
      by_cases same : key = id
      · simp only [same, if_true, found, Option.map_none]
      · simp only [same, if_false]

theorem get_set (timestamps : List Int) : (history.set id timestamps).get key =
    if key = id then (if timestamps = [] then none else some timestamps) else history.get key := by
  simp only [set, List.isEmpty_iff]
  by_cases emptied : timestamps = []
  · simp only [emptied, if_true, get, lookup_erase_ite]
  · simp only [emptied, if_false, get, lookup_insert_ite]

theorem window_ensure : (history.ensure id).window key = history.window key := by
  rw [window, get_ensure]
  split
  · rename_i same
    rw [same]
    rfl
  · rfl

theorem window_pruneStale (now : Int) (width : Nat) : (history.pruneStale id now width).window key =
    if key = id then (history.window id).dropWhile (stale now width) else history.window key := by
  rw [window, get_pruneStale]
  split
  · simp only [window]
    cases history.get id <;> rfl
  · rfl

theorem window_set (timestamps : List Int) : (history.set id timestamps).window key =
    if key = id then timestamps else history.window key := by
  rw [window, get_set]
  split
  · split
    · rename_i emptied
      rw [emptied]
      rfl
    · rfl
  · rfl

end Lookup

theorem window_recordAdmitted {history : History} {id : Identity} (tracked : (history.get id).isSome = true)
    (key : Identity) (now : Int) (count : Nat) : (history.recordAdmitted id now count).window key =
      if key = id then history.window id ++ List.replicate count now else history.window key := by
  rw [window, get_recordAdmitted]
  split
  · obtain ⟨entry, found⟩ := Option.isSome_iff_exists.mp tracked
    simp only [window, found, Option.map_some, Option.getD_some]
  · rfl

/-- Eviction that has nothing to do returns the history as it was. -/
theorem evictStalestUntil_of_le {history : History} {targetLen : Nat} (small : history.len ≤ targetLen) :
    history.evictStalestUntil targetLen = history := by
  have step : history.evictStalest targetLen = none := if_pos small
  unfold evictStalestUntil
  cases history.byActivity.card with
  | zero => rfl
  | succ fuel => simp only [evictLoop, step]

/-- A pass that goes on takes the first index entry and the identity it names. -/
theorem evictStalest_eq_some {history next : History} {targetLen : Nat}
    (step : history.evictStalest targetLen = some next) :
    ∃ stalest, first history.byActivity = some stalest ∧
      next = { byIdentity := history.byIdentity.erase (ofLex stalest).2
               byActivity := history.byActivity.erase stalest } := by
  simp only [evictStalest] at step
  split at step
  · cases step
  · split at step
    · cases step
    · rename_i stalest least
      exact ⟨stalest, least, (Option.some.inj step).symm⟩

/-- What is kept is kept unchanged. -/
theorem get_evictLoop {targetLen fuel : Nat} {history : History} {id : Identity} {entry : List Int}
    (found : (evictLoop targetLen fuel history).get id = some entry) : history.get id = some entry := by
  induction fuel generalizing history with
  | zero => exact found
  | succ fuel ih =>
      simp only [evictLoop] at found
      cases step : history.evictStalest targetLen with
      | none => simpa only [step] using found
      | some next =>
          simp only [step] at found
          obtain ⟨stalest, -, rfl⟩ := evictStalest_eq_some step
          have kept := ih found
          simp only [get, lookup_erase_ite] at kept
          split at kept
          · cases kept
          · exact kept

/-- A window outlives an eviction whole or not at all. -/
theorem window_evictStalestUntil (history : History) (targetLen : Nat) (id : Identity) :
    (history.evictStalestUntil targetLen).window id =
      if ((history.evictStalestUntil targetLen).get id).isSome = true then history.window id else [] := by
  cases found : (history.evictStalestUntil targetLen).get id with
  | none => simp only [window, found, Option.getD_none, Option.isSome_none, Bool.false_eq_true, if_false]
  | some entry => simp only [window, found, get_evictLoop found, Option.isSome_some, if_true]

/-- An index entry of `key`, if `key` is tracked. -/
def Indexed (history : History) (key : Identity) : Prop :=
  key ∈ history.byIdentity → ∃ entry ∈ history.byActivity, (ofLex entry).2 = key

theorem Indexed.set {history : History} {key : Identity} (indexed : history.Indexed key) (id : Identity)
    (timestamps : List Int) : (history.set id timestamps).Indexed key := by
  intro tracked
  by_cases same : key = id
  · subst same
    simp only [History.set] at tracked ⊢
    split at tracked
    · exact absurd tracked (by simp [Finmap.mem_erase])
    · rename_i inhabited
      rw [if_neg inhabited]
      exact ⟨_, Finset.mem_insert_self _ _, rfl⟩
  · have before : key ∈ history.byIdentity := by
      have found : ((history.set id timestamps).get key).isSome = true := Finmap.lookup_isSome.mpr tracked
      rw [get_set, if_neg same] at found
      exact Finmap.lookup_isSome.mp found
    obtain ⟨entry, member, own⟩ := indexed before
    refine ⟨entry, ?_, own⟩
    have kept : entry ∈ (match history.get id with
        | some old => history.byActivity.erase (toLex (activityKey old, id))
        | none => history.byActivity) := by
      split
      · refine Finset.mem_erase.mpr ⟨?_, member⟩
        rintro rfl
        exact same own.symm
      · exact member
    simp only [History.set]
    split
    · exact kept
    · exact Finset.mem_insert_of_mem kept

/-- The tracked identities that eviction does not reach before `id`: all of their index
    entries stand at or after one of `id`. -/
def notStaler (history : History) (id : Identity) : Finset Identity :=
  history.byIdentity.keys.filter fun other => ∀ entry ∈ history.byActivity, (ofLex entry).2 = other →
    ∃ mine ∈ history.byActivity, (ofLex mine).2 = id ∧ mine ≤ entry

theorem mem_notStaler {history : History} {id other : Identity} : other ∈ history.notStaler id ↔
    other ∈ history.byIdentity ∧ ∀ entry ∈ history.byActivity, (ofLex entry).2 = other →
      ∃ mine ∈ history.byActivity, (ofLex mine).2 = id ∧ mine ≤ entry := by
  rw [notStaler, Finset.mem_filter, Finmap.mem_keys]

theorem get_evictLoop_none {targetLen fuel : Nat} {history : History} {id : Identity}
    (absent : history.get id = none) : (evictLoop targetLen fuel history).get id = none := by
  cases found : (evictLoop targetLen fuel history).get id with
  | none => rfl
  | some entry =>
      rw [get_evictLoop found] at absent
      cases absent

/-- Eviction of somebody staler does not change who stands at or after `id`. -/
theorem notStaler_evict {history : History} {id : Identity} {stalest : ActivityEntry}
    (least : ∀ entry ∈ history.byActivity, stalest ≤ entry) (inside : stalest ∈ history.byActivity)
    (other : (ofLex stalest).2 ≠ id) :
    ({ byIdentity := history.byIdentity.erase (ofLex stalest).2
       byActivity := history.byActivity.erase stalest } : History).notStaler id = history.notStaler id := by
  have mine : ∀ entry ∈ history.byActivity, (ofLex entry).2 = id → entry ∈ history.byActivity.erase stalest := by
    intro entry member same
    refine Finset.mem_erase.mpr ⟨?_, member⟩
    rintro rfl
    exact other same
  ext key
  rw [mem_notStaler, mem_notStaler, Finmap.mem_erase]
  constructor
  · rintro ⟨⟨ne, tracked⟩, after⟩
    refine ⟨tracked, fun entry member same => ?_⟩
    have kept : entry ∈ history.byActivity.erase stalest := by
      refine Finset.mem_erase.mpr ⟨?_, member⟩
      rintro rfl
      exact ne same.symm
    obtain ⟨first, found, own, le⟩ := after entry kept same
    exact ⟨first, (Finset.mem_erase.mp found).2, own, le⟩
  · rintro ⟨tracked, after⟩
    refine ⟨⟨?_, tracked⟩, fun entry member same => ?_⟩
    · rintro rfl
      obtain ⟨first, found, own, le⟩ := after stalest inside rfl
      have same : first = stalest := le_antisymm le (least first found)
      rw [same] at own
      exact other own
    · obtain ⟨first, found, own, le⟩ := after entry (Finset.mem_erase.mp member).2 same
      exact ⟨first, mine first found own, own, le⟩

/-- A tracked identity outlives an eviction exactly if those at or after it fit. -/
theorem tracked_evictLoop_iff (targetLen : Nat) {fuel : Nat} {history : History} {id : Identity}
    (enough : history.byActivity.card ≤ fuel) (tracked : id ∈ history.byIdentity)
    (indexed : ∃ entry ∈ history.byActivity, (ofLex entry).2 = id) :
    ((evictLoop targetLen fuel history).get id).isSome = true ↔ (history.notStaler id).card ≤ targetLen := by
  induction fuel generalizing history with
  | zero =>
      obtain ⟨entry, member, -⟩ := indexed
      rw [Finset.card_eq_zero.mp (Nat.le_zero.mp enough)] at member
      exact absurd member (Finset.notMem_empty entry)
  | succ fuel ih =>
      by_cases small : history.len ≤ targetLen
      · have stop : history.evictStalest targetLen = none := if_pos small
        simp only [evictLoop, stop]
        refine iff_of_true (Finmap.lookup_isSome.mpr tracked) (le_trans ?_ small)
        exact Finset.card_le_card (Finset.filter_subset _ _)
      · obtain ⟨entry, member, own⟩ := indexed
        cases found : first history.byActivity with
        | none =>
            rw [first_eq_none.mp found] at member
            exact absurd member (Finset.notMem_empty entry)
        | some stalest =>
            have pass : history.evictStalest targetLen = some
                { byIdentity := history.byIdentity.erase (ofLex stalest).2
                  byActivity := history.byActivity.erase stalest } := by
              simp only [evictStalest, if_neg small, found]
            have inside := first_mem found
            simp only [evictLoop, pass]
            by_cases same : (ofLex stalest).2 = id
            · have gone : ({ byIdentity := history.byIdentity.erase (ofLex stalest).2
                             byActivity := history.byActivity.erase stalest } : History).get id = none := by
                simp only [get, lookup_erase_ite, same, if_true]
              rw [get_evictLoop_none gone]
              refine iff_of_false (by simp) ?_
              have all : history.notStaler id = history.byIdentity.keys := by
                refine Finset.filter_true_of_mem fun other _ entry member _ => ?_
                exact ⟨stalest, inside, same, first_le found member⟩
              rw [all]
              exact small
            · rw [← notStaler_evict (fun _ => first_le found) inside same]
              refine ih ?_ ?_ ?_
              · rw [Finset.card_erase_of_mem inside]
                omega
              · exact Finmap.mem_erase.mpr ⟨Ne.symm same, tracked⟩
              · refine ⟨entry, Finset.mem_erase.mpr ⟨?_, member⟩, own⟩
                rintro rfl
                exact same own

end History

end AiProtect
