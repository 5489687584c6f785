import AiProtect.Policy.Capacity
import AiProtect.Policy.PrivateStore

/-! # Windows in time order

Pruning takes expired timestamps off the front of a window, and the index reads its
back as the last activity; both count on windows that are sorted and lie in the past.
Decisions push readings of one monotonic clock and keep windows that way. A merged row
comes from a wall clock that may be ahead. A row from the future has the age zero, so it
is merged, and the next admission lands behind it.
-/

namespace AiProtect

open SlidingWindow Runs

namespace History

/-- Windows in time order, with nothing after the last reading of the clock. -/
structure SortedPast (history : History) (last : WithBot Int) : Prop where
  sorted : ∀ id, (history.window id).Pairwise (· ≤ ·)
  past : ∀ id, ∀ t ∈ history.window id, (t : WithBot Int) ≤ last

namespace SortedPast

variable {history : History} {last : WithBot Int}

theorem later (ordered : history.SortedPast last) {now : WithBot Int} (le : last ≤ now) :
    history.SortedPast now :=
  ⟨ordered.sorted, fun id t member => (ordered.past id t member).trans le⟩

/-- The rule for operations that only drop timestamps. -/
theorem of_sublist {after : History} (ordered : history.SortedPast last)
    (fewer : ∀ id, (after.window id).Sublist (history.window id)) : after.SortedPast last :=
  ⟨fun id => (ordered.sorted id).sublist (fewer id),
    fun id t member => ordered.past id t ((fewer id).subset member)⟩

theorem evictStalestUntil (ordered : history.SortedPast last) (targetLen : Nat) :
    (history.evictStalestUntil targetLen).SortedPast last := by
  refine ordered.of_sublist fun id => ?_
  rw [window_evictStalestUntil]
  split
  · exact List.Sublist.refl _
  · exact List.nil_sublist _

theorem ensure (ordered : history.SortedPast last) (id : Identity) :
    (history.ensure id).SortedPast last := by
  refine ordered.of_sublist fun key => ?_
  rw [window_ensure]

theorem pruneStale (ordered : history.SortedPast last) (id : Identity) (now : Int) (width : Nat) :
    (history.pruneStale id now width).SortedPast last := by
  refine ordered.of_sublist fun key => ?_
  rw [window_pruneStale]
  split
  · rename_i same
    rw [same]
    exact List.dropWhile_sublist _
  · exact List.Sublist.refl _

theorem recordAdmitted (ordered : history.SortedPast last) {id : Identity}
    (tracked : (history.get id).isSome = true) {now : Int} (le : last ≤ (now : WithBot Int)) (count : Nat) :
    (history.recordAdmitted id now count).SortedPast now := by
  have before : ∀ t ∈ history.window id, t ≤ now :=
    fun t member => WithBot.coe_le_coe.mp ((ordered.past id t member).trans le)
  refine ⟨?_, ?_⟩
  · intro key
    rw [window_recordAdmitted tracked]
    split
    · exact sorted_admitted (ordered.sorted id) before count
    · exact ordered.sorted key
  · intro key t member
    rw [window_recordAdmitted tracked] at member
    split at member
    · exact WithBot.coe_le_coe.mpr (past_admitted before count t member)
    · exact (ordered.past key t member).trans le

/-- After the front is pruned, nothing is counted that is older than the window. -/
theorem counted {now : Int} (ordered : history.SortedPast now) (id : Identity) (width : Nat) :
    ∀ t ∈ (history.pruneStale id now width).window id, now - t ≤ width := by
  intro t member
  rw [window_pruneStale, if_pos rfl, stale_eq_not_recent, dropWhile_sorted (ordered.sorted id)] at member
  have young := (List.mem_filter.mp member).2
  simp only [recent, decide_eq_true_eq] at young
  omega

end SortedPast

end History

/-- No row of the snapshot converts to an `Instant` after `now`. -/
def Snapshot.NoneAhead (rows : Snapshot) (anchor : Anchor) (now : Int) : Prop :=
  ∀ entry ∈ rows.entries, ∀ row ∈ entry.2, ∀ instant ∈ anchor.toInstant row, instant ≤ now

instance (rows : Snapshot) (anchor : Anchor) (now : Int) : Decidable (rows.NoneAhead anchor now) :=
  inferInstanceAs (Decidable (∀ entry ∈ rows.entries, ∀ row ∈ entry.2, ∀ instant ∈ anchor.toInstant row,
    instant ≤ now))

theorem Snapshot.NoneAhead.lookup {rows : Snapshot} {anchor : Anchor} {now : Int}
    (behind : rows.NoneAhead anchor now) {name : String} {stored : List Int}
    (found : rows.lookup name = some stored) {row : Int} (member : row ∈ stored) {instant : Int}
    (converted : anchor.toInstant row = some instant) : instant ≤ now :=
  behind ⟨name, stored⟩ (AList.mem_lookup_iff.mp found) row member instant converted

namespace History.SortedPast

theorem mergeHistoryFromRows {history : History} {last : WithBot Int}
    (ordered : history.SortedPast last)
    {anchor : Anchor} {rows : Snapshot} {now : Int} (le : last ≤ (now : WithBot Int))
    (behind : rows.NoneAhead anchor now) (width : Nat) :
    (AiProtect.mergeHistoryFromRows history anchor rows width now).SortedPast now := by
  refine ⟨?_, ?_⟩
  · intro id
    rw [window_mergeHistoryFromRows]
    cases rows.lookup id.name with
    | none => exact ordered.sorted id
    | some stored => exact sorted_mergeWindow _ _
  · intro id t member
    rw [window_mergeHistoryFromRows] at member
    cases found : rows.lookup id.name with
    | none =>
        rw [found] at member
        exact (ordered.past id t member).trans le
    | some stored =>
        rw [found] at member
        rcases (mem_mergeWindow member).1 with known | ⟨row, inside, converted⟩
        · exact (ordered.past id t known).trans le
        · exact WithBot.coe_le_coe.mpr (behind.lookup found inside converted)

theorem rowsIntoHistory {anchor : Anchor} {rows : Snapshot} {now : Int}
    (behind : rows.NoneAhead anchor now)
    (width : Nat) : (AiProtect.rowsIntoHistory anchor rows width now).SortedPast now := by
  refine ⟨?_, ?_⟩
  · intro id
    rw [window_rowsIntoHistory]
    cases rows.lookup id.name with
    | none => exact List.Pairwise.nil
    | some stored => exact List.pairwise_insertionSort _ _
  · intro id t member
    rw [window_rowsIntoHistory] at member
    cases found : rows.lookup id.name with
    | none =>
        rw [found] at member
        cases member
    | some stored =>
        rw [found] at member
        have loaded := List.mem_of_mem_filter ((List.mem_insertionSort _).mp member)
        obtain ⟨row, inside, converted⟩ := List.mem_filterMap.mp loaded
        exact WithBot.coe_le_coe.mpr (behind.lookup found inside converted)

end History.SortedPast

namespace ThresholdPolicy

open History

/-- The reading at which `new` loads its rows, if it loads any. -/
def StateDb.reading : StateDb → WithBot Int
  | .loaded _ _ now => now
  | _ => ⊥

def StateDb.NoneAhead : StateDb → Prop
  | .loaded anchor rows now => rows.NoneAhead anchor now
  | _ => True

instance (db : StateDb) : Decidable db.NoneAhead :=
  match db with
  | .loaded anchor rows now => inferInstanceAs (Decidable (rows.NoneAhead anchor now))
  | .absent | .unread => .isTrue trivial

theorem sortedPast_new (config : ThresholdConfig) {db : StateDb} (behind : db.NoneAhead) :
    (new config db).history.SortedPast db.reading := by
  cases db with
  | absent | unread => refine ⟨?_, ?_⟩ <;> intro id <;> simp [new, window]
  | loaded anchor rows now => exact (SortedPast.rowsIntoHistory behind _).evictStalestUntil _

theorem sortedPast_prepare {policy : ThresholdPolicy} {last : WithBot Int}
    (ordered : policy.history.SortedPast last) (key : Identity) (now : Int) :
    (policy.prepare key now).SortedPast last := by
  have room : (policy.makeRoom key).SortedPast last := by
    simp only [makeRoom]
    split
    · exact ordered
    · exact ordered.evictStalestUntil _
  exact (room.ensure key).pruneStale key now _

theorem sortedPast_evaluate {policy : ThresholdPolicy} {last : WithBot Int}
    (ordered : policy.history.SortedPast last) (action : Action) (ctx : PolicyContext) {now : Int}
    (le : last ≤ (now : WithBot Int)) : (policy.evaluate action ctx now).2.history.SortedPast now := by
  have prepared := sortedPast_prepare ordered (policy.config.historyKey ctx) now
  cases policy.evaluate_outcome action ctx now with
  | bypassed _ result | oversized _ _ result =>
      rw [result]
      exact ordered.later le
  | overBudget _ _ _ result =>
      rw [result]
      exact prepared.later le
  | admitted _ _ _ result =>
      rw [result]
      exact prepared.recordAdmitted (policy.get_prepare_isSome _ now) le _

end ThresholdPolicy

namespace StateSync

open History ThresholdPolicy

/-- A merge finds no row that converts to an `Instant` after its reading of the clock. -/
def NoneAhead (system : StateSync) : SyncLabel → Prop
  | .merged now =>
      match system.phase with
      | .folding anchor rows => rows.NoneAhead anchor now
      | _ => True
  | _ => True

instance (system : StateSync) (label : SyncLabel) : Decidable (system.NoneAhead label) :=
  match label with
  | .merged now =>
      match phase : system.phase with
      | .folding anchor rows => decidable_of_iff (rows.NoneAhead anchor now) (by rw [NoneAhead, phase])
      | .idle | .writing _ _ => .isTrue (by rw [NoneAhead, phase]; trivial)
  | .evaluate _ _ _ | .drain _ | .stored _ _ | .failed => .isTrue trivial

theorem sortedPast_step {system : StateSync} {last : WithBot Int}
    (ordered : system.policy.history.SortedPast last) {label : SyncLabel}
    (le : ∀ now ∈ label.reading?, last ≤ (now : WithBot Int)) (behind : system.NoneAhead label) :
    (system.step label).policy.history.SortedPast ((label.reading?.map WithBot.some).getD last) := by
  have move := system.policyStep label
  generalize (system.step label).policy = after at move
  cases move with
  | @evaluated action ctx now => exact sortedPast_evaluate ordered action ctx (le now rfl)
  | @folded anchor rows now phase =>
      simp only [NoneAhead, phase] at behind
      exact (ordered.mergeHistoryFromRows (le now rfl) behind _).evictStalestUntil _
  | kept history _ =>
      rw [history]
      exact ordered.later (le_reading le)

theorem sortedPast_run {labels : List SyncLabel} {system : StateSync} {last : WithBot Int}
    (ordered : system.policy.history.SortedPast last) (steady : Steady last labels)
    (behind : EachStep step NoneAhead system labels) :
    (labels.foldl step system).policy.history.SortedPast (lastReading last labels) := by
  induction labels generalizing system last with
  | nil => exact ordered
  | cons label labels ih =>
      obtain ⟨here, rest⟩ := eachStep_cons.mp behind
      obtain ⟨reached, onward⟩ := steady_cons steady
      rw [lastReading_cons]
      exact ih (sortedPast_step ordered reached here) onward rest

theorem Steady.of_prefix {last : WithBot Int} {labels before : List SyncLabel}
    (steady : Steady last labels) (inside : before <+: labels) : Steady last before := by
  have readings : before.filterMap SyncLabel.reading? <+: labels.filterMap SyncLabel.reading? :=
    inside.filterMap _
  exact ⟨fun now member => steady.1 now (readings.subset member), steady.2.sublist readings.sublist⟩

/-- Along a run on one monotonic clock, if no row that is loaded or merged converts to an
    `Instant` after the reading it is taken over at: in every state each window is sorted
    and lies in the past, and pruning leaves nothing that is older than the window. -/
theorem windows_sorted_and_past (config : ThresholdConfig) (db : StateDb) (table : List Sqlite.Row)
    (labels : List SyncLabel) (steady : Steady db.reading labels) (loaded : db.NoneAhead)
    (behind : EachStep step NoneAhead (started config db table) labels) :
    ∀ before, before <+: labels → ∀ now : Int, lastReading db.reading before ≤ (now : WithBot Int) →
      ∀ id, ((before.foldl step (started config db table)).policy.history.window id).Pairwise (· ≤ ·) ∧
        (∀ t ∈ (before.foldl step (started config db table)).policy.history.window id, t ≤ now) ∧
        ∀ t ∈ ((before.foldl step (started config db table)).policy.history.pruneStale id now
          config.window).window id, now - t ≤ config.window := by
  intro before inside now current id
  have behindThen : EachStep step NoneAhead (started config db table) before :=
    fun earlier label here => behind earlier label (here.trans inside)
  have ordered := (sortedPast_run (sortedPast_new config loaded) (steady.of_prefix inside) behindThen).later current
  refine ⟨ordered.sorted id, ?_, ordered.counted id config.window⟩
  intro t member
  exact WithBot.coe_le_coe.mp (ordered.past id t member)

def alice : PolicyContext := ⟨⟨"alice"⟩⟩

/-- A row of the load, an admission, and a merge of rows that are five milliseconds old. -/
def punctualDb : StateDb := .loaded (.now 5000000 5000000) (AList.singleton "alice" [4]) 5000000

def punctual : List SyncLabel :=
  [.evaluate lockAction alice 6000000, .drain (.now 9000000 9000000),
    .stored ["alice"] (AList.singleton "alice" [4, 4, 6]), .merged 9000000]

theorem windows_sorted_and_past_punctual :
    ((punctual.foldl step (started minuteConfig punctualDb [])).policy.history.window ⟨"alice"⟩).Pairwise
        (· ≤ ·) ∧
      (punctual.foldl step (started minuteConfig punctualDb [])).policy.history.window ⟨"alice"⟩ =
        [4000000, 6000000] := by
  refine ⟨?_, by decide +kernel⟩
  have behind : EachStep step NoneAhead (started minuteConfig punctualDb []) punctual := by
    simp only [punctual, eachStep_cons]
    exact ⟨trivial, trivial, trivial, by decide +kernel, eachStep_nil⟩
  exact (windows_sorted_and_past minuteConfig punctualDb [] punctual
    ⟨by decide +kernel, by decide +kernel⟩ (by decide +kernel) behind punctual
    (List.prefix_refl _) 9000000 (by decide +kernel) ⟨"alice"⟩).1

/-- A row of an instance whose wall clock is a second ahead, then an admission. -/
def aheadOfTime : List SyncLabel :=
  [.drain (.now 0 0), .stored [] (AList.singleton "alice" [1000]), .merged 1, .evaluate lockAction alice 2]

/-- The row is later than the reading it is merged at, the admission stands behind it, and
    half a second after that has expired it is still counted. -/
theorem windows_out_of_order :
    Steady ⊥ aheadOfTime ∧ (Anchor.now 0 0).Converts 1000 ∧
      ((aheadOfTime.take 3).foldl step (started minuteConfig .unread [])).policy.history.window ⟨"alice"⟩ =
        [1000000000] ∧
      ¬ ((aheadOfTime.foldl step (started minuteConfig .unread [])).policy.history.window ⟨"alice"⟩).Pairwise
        (· ≤ ·) ∧
      (2 : Int) ∈ ((aheadOfTime.foldl step (started minuteConfig .unread [])).policy.history.pruneStale
        ⟨"alice"⟩ (fromSecs 60 + 500000000) minuteConfig.window).window ⟨"alice"⟩ := by
  refine ⟨⟨by decide +kernel, by decide +kernel⟩, by decide +kernel, by decide +kernel, by decide +kernel,
    by decide +kernel⟩

end StateSync

end AiProtect
