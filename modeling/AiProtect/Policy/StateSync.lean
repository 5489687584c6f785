import AiProtect.Lib.Runs
import AiProtect.Policy.Threshold
import AiProtect.Store.Sqlite
import Mathlib.Data.Multiset.Filter
import Mathlib.Tactic.Abel

/-! # One policy and its state store

`StateSync` is a policy with the store behind it. `sync_once` is three steps, so
that decisions may fall between them: `drain` empties the pending buffer, the store
answers or fails, and the answer is folded into the history.

The ledger follows each admitted unit through these steps. The last theorem says
when no unit is lost on its way: exactly if no sync that had drained something
fails.
-/

namespace AiProtect

open Runs

/-- Where `sync_once` stands: the rows it is writing, or the answer it has yet to fold in. -/
inductive SyncPhase where
  | idle
  | writing (anchor : Anchor) (newEvents : List Sqlite.Row)
  | folding (anchor : Anchor) (rows : Snapshot)

structure StateSync where
  policy : ThresholdPolicy
  phase : SyncPhase
  table : List Sqlite.Row

inductive SyncLabel where
  | evaluate (action : Action) (ctx : PolicyContext) (now : Int)
  | drain (anchor : Anchor)
  | stored (ranking : List String) (rows : Snapshot)
  | failed
  | merged (now : Int)

namespace StateSync

def drain (system : StateSync) (anchor : Anchor) : StateSync :=
  match system.phase, system.policy.state with
  | .idle, some _ => { system with
      policy := (system.policy.drain anchor).2
      phase := .writing anchor (system.policy.drain anchor).1 }
  | _, _ => system

/-- The table after the sync in progress, if there is one. -/
def stored (system : StateSync) (ranking : List String) : List Sqlite.Row :=
  match system.phase with
  | .writing anchor newEvents => Sqlite.blockingSync ranking system.table newEvents
      (system.policy.cutoff anchor) system.policy.config.maxTrackedIdentities
  | _ => system.table

def step (system : StateSync) : SyncLabel → StateSync
  | .evaluate action ctx now => { system with policy := (system.policy.evaluate action ctx now).2 }
  | .drain anchor => system.drain anchor
  | .stored ranking rows =>
      match system.phase with
      | .writing anchor _ => { system with table := system.stored ranking, phase := .folding anchor rows }
      | _ => system
  | .failed =>
      match system.phase with
      | .writing _ _ => { system with phase := .idle }
      | _ => system
  | .merged now =>
      match system.phase with
      | .folding anchor rows => { system with policy := system.policy.foldSnapshot anchor rows now, phase := .idle }
      | _ => system

/-- What a step does to the policy: it decides, it folds the answer of the store in, or it
    leaves history and configuration as they were. -/
inductive PolicyStep (system : StateSync) : SyncLabel → ThresholdPolicy → Prop where
  | evaluated {action : Action} {ctx : PolicyContext} {now : Int} :
      PolicyStep system (.evaluate action ctx now) (system.policy.evaluate action ctx now).2
  | folded {anchor : Anchor} {rows : Snapshot} {now : Int} (phase : system.phase = .folding anchor rows) :
      PolicyStep system (.merged now) (system.policy.foldSnapshot anchor rows now)
  | kept {label : SyncLabel} {after : ThresholdPolicy} (history : after.history = system.policy.history)
      (config : after.config = system.policy.config) : PolicyStep system label after

theorem policyStep (system : StateSync) (label : SyncLabel) : system.PolicyStep label (system.step label).policy := by
  cases label with
  | evaluate action ctx now => exact .evaluated
  | drain anchor =>
      simp only [step, drain, ThresholdPolicy.drain]
      split
      · split <;> exact .kept rfl rfl
      · exact .kept rfl rfl
  | stored ranking rows =>
      simp only [step]
      split <;> exact .kept rfl rfl
  | failed =>
      simp only [step]
      split <;> exact .kept rfl rfl
  | merged now =>
      simp only [step]
      split
      · rename_i phase
        exact .folded phase
      · exact .kept rfl rfl

/-- The store is SQLite: its ranking is one SQL may give, and its answer is the table. -/
def FromSqlite (system : StateSync) : SyncLabel → Prop
  | .stored ranking rows =>
      match system.phase with
      | .writing anchor newEvents =>
          Sqlite.IsRanking ((system.table ++ newEvents).filter fun row => system.policy.cutoff anchor ≤ row.2)
            ranking ∧ Sqlite.Answers rows (system.stored ranking)
      | _ => True
  | _ => True

instance (system : StateSync) (label : SyncLabel) : Decidable (system.FromSqlite label) :=
  match label with
  | .stored ranking rows =>
      match phase : system.phase with
      | .writing anchor newEvents => decidable_of_iff
          (Sqlite.IsRanking ((system.table ++ newEvents).filter fun row => system.policy.cutoff anchor ≤ row.2)
            ranking ∧ Sqlite.Answers rows (system.stored ranking)) (by rw [FromSqlite, phase])
      | .idle => .isTrue (by rw [FromSqlite, phase]; trivial)
      | .folding _ _ => .isTrue (by rw [FromSqlite, phase]; trivial)
  | .evaluate _ _ _ | .drain _ | .failed | .merged _ => .isTrue trivial

end StateSync

/-- One unit of blast radius, as `pending` holds it. -/
abbrev PendingUnit := Identity × Int

/-- A row of the table with the unit it was written for, unless it was there before. -/
structure StoredRow where
  row : Sqlite.Row
  unit : Option PendingUnit
  deriving DecidableEq

/-- A system with a record of what was admitted and where it went. -/
structure Ledger where
  system : StateSync
  admitted : List PendingUnit
  batch : List PendingUnit
  stored : List StoredRow
  removed : List PendingUnit

namespace ThresholdPolicy

def pending (policy : ThresholdPolicy) : List PendingUnit := policy.state.elim [] PersistentState.pending

/-- The units a decision admits. -/
def grants (policy : ThresholdPolicy) (action : Action) (ctx : PolicyContext) (now : Int) : List PendingUnit :=
  if policy.config.covers action.operation && policy.admits action ctx now then
    List.replicate action.blastRadius (policy.config.historyKey ctx, now)
  else []

/-- A policy with a store queues what it admits, behind what is queued already. -/
theorem pending_evaluate {policy : ThresholdPolicy} (persistent : policy.state.isSome = true) (action : Action)
    (ctx : PolicyContext) (now : Int) :
    (policy.evaluate action ctx now).2.pending = policy.pending ++ policy.grants action ctx now ∧
      (policy.evaluate action ctx now).2.state.isSome = true := by
  cases policy.evaluate_outcome action ctx now with
  | bypassed outside result =>
      simp only [result, grants, outside, Bool.false_and, Bool.false_eq_true, if_false, List.append_nil, persistent,
        and_self]
  | oversized covered large result =>
      have refused : policy.admits action ctx now = false := by
        rw [admits, decide_eq_false (by omega), Bool.false_and]
      simp only [result, grants, refused, Bool.and_false, Bool.false_eq_true, if_false, List.append_nil, persistent,
        and_self]
  | overBudget covered small full result =>
      have refused : policy.admits action ctx now = false := by
        rw [admits, decide_eq_false (by omega : ¬ addUsize _ _ ≤ _), Bool.and_false]
      simp only [result, grants, refused, Bool.and_false, Bool.false_eq_true, if_false, List.append_nil, pending,
        persistent, and_self]
  | admitted covered small fits result =>
      have granted : policy.admits action ctx now = true := by
        rw [admits, decide_eq_true small, decide_eq_true fits, Bool.and_self]
      obtain ⟨state, found⟩ := Option.isSome_iff_exists.mp persistent
      simp only [result, grants, covered, granted, Bool.and_self, if_true, pending, enqueue, found, Option.map_some,
        Option.elim_some, Option.isSome_some, and_self]

end ThresholdPolicy

namespace Ledger

/-- A policy whose buffer is empty, in front of a table that may hold rows already. -/
def start (config : ThresholdConfig) (history : History) (table : List Sqlite.Row) : Ledger where
  system := ⟨⟨config, history, some ⟨[]⟩⟩, .idle, table⟩
  admitted := []
  batch := []
  stored := table.map fun row => ⟨row, none⟩
  removed := []

/-- The row `drain` makes of a unit. -/
def asRow (anchor : Anchor) (unit : PendingUnit) : StoredRow :=
  ⟨(unit.1.name, anchor.toEpochMillis unit.2), some unit⟩

def step (ledger : Ledger) (label : SyncLabel) : Ledger :=
  let next := { ledger with system := ledger.system.step label }
  match label, ledger.system.phase with
  | .evaluate action ctx now, _ =>
      { next with admitted := ledger.admitted ++ ledger.system.policy.grants action ctx now }
  | .drain _, .idle => { next with batch := ledger.system.policy.pending }
  | .stored ranking _, .writing anchor _ =>
      let rows := ledger.stored ++ ledger.batch.map (asRow anchor)
      let keep := fun entry : StoredRow => Sqlite.keeps ranking (ledger.system.policy.cutoff anchor)
        ledger.system.policy.config.maxTrackedIdentities entry.row
      { next with
        stored := rows.filter keep
        removed := ledger.removed ++ (rows.filter fun entry => !keep entry).filterMap StoredRow.unit
        batch := [] }
  | .failed, .writing _ _ => { next with batch := [] }
  | _, _ => next

-- Its equations are generated once, ahead of the proofs about the single steps.
attribute [grind unfold] step

/-- What the store holds of the admitted units. -/
def inStore (ledger : Ledger) : List PendingUnit := ledger.stored.filterMap StoredRow.unit

/-- The batch is what the sync in progress is writing. -/
def Batched (ledger : Ledger) : Prop :=
  match ledger.system.phase with
  | .writing anchor newEvents => newEvents = ledger.batch.map fun unit => (asRow anchor unit).row
  | _ => ledger.batch = []

/-- Every admitted unit is in exactly one place. -/
structure Accounted (ledger : Ledger) : Prop where
  persistent : ledger.system.policy.state.isSome = true
  tabled : ledger.system.table = ledger.stored.map StoredRow.row
  batched : ledger.Batched
  balance : (ledger.admitted : Multiset PendingUnit) =
    ledger.system.policy.pending + ledger.batch + ledger.inStore + ledger.removed

/-- A sync fails only if it had nothing to write. -/
def FailsEmpty (ledger : Ledger) : SyncLabel → Prop
  | .failed =>
      match ledger.system.phase with
      | .writing _ newEvents => newEvents = []
      | _ => True
  | _ => True

theorem accounted_start (config : ThresholdConfig) (history : History) (table : List Sqlite.Row) :
    (start config history table).Accounted where
  persistent := rfl
  tabled := by simp [start, Function.comp_def]
  batched := rfl
  balance := by simp [start, inStore, ThresholdPolicy.pending, List.filterMap_map]

theorem split_units (keep : StoredRow → Bool) (rows : List StoredRow) :
    ((rows.filter keep).filterMap StoredRow.unit + (rows.filter fun entry => !keep entry).filterMap StoredRow.unit :
      Multiset PendingUnit) = rows.filterMap StoredRow.unit := by
  rw [Multiset.coe_add, ← List.filterMap_append, Multiset.coe_eq_coe]
  exact (List.filter_append_perm keep rows).filterMap _

theorem filterMap_append_asRow (rows : List StoredRow) (anchor : Anchor) (units : List PendingUnit) :
    (rows ++ units.map (asRow anchor)).filterMap StoredRow.unit = rows.filterMap StoredRow.unit ++ units := by
  rw [List.filterMap_append, List.filterMap_map]
  exact congrArg _ List.filterMap_some

namespace Accounted

variable {ledger : Ledger}

theorem evaluate (accounted : ledger.Accounted) (action : Action) (ctx : PolicyContext) (now : Int) :
    (ledger.step (.evaluate action ctx now)).Accounted := by
  obtain ⟨queued, persistent⟩ := ThresholdPolicy.pending_evaluate accounted.persistent action ctx now
  refine ⟨persistent, accounted.tabled, accounted.batched, ?_⟩
  simp only [step, StateSync.step, queued, ← Multiset.coe_add, accounted.balance, inStore]
  abel

theorem drain (accounted : ledger.Accounted) (anchor : Anchor) : (ledger.step (.drain anchor)).Accounted := by
  obtain ⟨state, found⟩ := Option.isSome_iff_exists.mp accounted.persistent
  have batched := accounted.batched
  have balance := accounted.balance
  cases phase : ledger.system.phase with
  | writing _ _ | folding _ _ =>
      have same : ledger.step (.drain anchor) = ledger := by
        simp only [step, StateSync.step, StateSync.drain, phase]
      rw [same]
      exact accounted
  | idle =>
      simp only [Batched, phase] at batched
      have pending : ledger.system.policy.pending = state.pending := by
        simp only [ThresholdPolicy.pending, found, Option.elim_some]
      simp only [pending, batched, Multiset.coe_nil, add_zero] at balance
      refine ⟨?_, ?_, ?_, ?_⟩
      · simp only [step, StateSync.step, StateSync.drain, phase, found, ThresholdPolicy.drain, Option.isSome_some]
      · simpa only [step, StateSync.step, StateSync.drain, phase, found] using accounted.tabled
      · simp only [step, Batched, StateSync.step, StateSync.drain, phase, found, ThresholdPolicy.drain, pending, asRow]
      · simp only [step, StateSync.step, StateSync.drain, phase, found, ThresholdPolicy.drain,
          ThresholdPolicy.pending, Option.elim_some, Multiset.coe_nil, zero_add, inStore, balance]

theorem stored (accounted : ledger.Accounted) (ranking : List String) (rows : Snapshot) :
    (ledger.step (.stored ranking rows)).Accounted ∧
      ((ledger.step (.stored ranking rows)).inStore + (ledger.step (.stored ranking rows)).removed :
        Multiset PendingUnit) = ledger.inStore + ledger.removed + ledger.batch := by
  have batched := accounted.batched
  cases phase : ledger.system.phase with
  | idle | folding _ _ =>
      have same : ledger.step (.stored ranking rows) = ledger := by
        simp only [step, StateSync.step, phase]
      simp only [Batched, phase] at batched
      rw [same, batched]
      exact ⟨accounted, by simp only [Multiset.coe_nil, add_zero]⟩
  | writing anchor newEvents =>
      simp only [Batched, phase] at batched
      have written : (ledger.step (.stored ranking rows)).inStore + (ledger.step (.stored ranking rows)).removed =
          (ledger.inStore + ledger.removed + ledger.batch : Multiset PendingUnit) := by
        simp only [step, phase, inStore, ← Multiset.coe_add]
        rw [add_left_comm, split_units, filterMap_append_asRow, ← Multiset.coe_add]
        abel
      refine ⟨⟨?_, ?_, ?_, ?_⟩, written⟩
      · simpa only [step, StateSync.step, phase] using accounted.persistent
      · have joined : ledger.stored.map StoredRow.row ++ (ledger.batch.map fun unit => (asRow anchor unit).row) =
            (ledger.stored ++ ledger.batch.map (asRow anchor)).map StoredRow.row := by
          rw [List.map_append, List.map_map]
          rfl
        simp only [step, StateSync.step, StateSync.stored, phase, Sqlite.blockingSync_eq, batched, accounted.tabled]
        rw [joined, List.filter_map]
        rfl
      · simp only [step, Batched, StateSync.step, phase]
      · rw [add_assoc, written]
        simp only [step, StateSync.step, phase, Multiset.coe_nil, add_zero, accounted.balance]
        abel

/-- A failure is accounted for exactly if nothing had been drained. -/
theorem failed_iff (accounted : ledger.Accounted) :
    (ledger.step .failed).Accounted ↔ ledger.FailsEmpty .failed := by
  have batched := accounted.batched
  cases phase : ledger.system.phase with
  | idle | folding _ _ =>
      have same : ledger.step .failed = ledger := by
        simp only [step, StateSync.step, phase]
      rw [same]
      exact iff_of_true accounted (by simp only [FailsEmpty, phase])
  | writing anchor newEvents =>
      simp only [Batched, phase] at batched
      simp only [FailsEmpty, phase, batched, List.map_eq_nil_iff]
      constructor
      · intro after
        have before := congrArg Multiset.card accounted.balance
        have lost := congrArg Multiset.card after.balance
        simp only [step, StateSync.step, phase, Multiset.card_add, Multiset.coe_card, List.length_nil,
          inStore] at before lost
        exact List.length_eq_zero_iff.mp (by omega)
      · intro nothing
        have balance := accounted.balance
        refine ⟨?_, ?_, ?_, ?_⟩
        · simpa only [step, StateSync.step, phase] using accounted.persistent
        · simpa only [step, StateSync.step, phase] using accounted.tabled
        · simp only [step, Batched, StateSync.step, phase]
        · simpa only [step, StateSync.step, phase, nothing, inStore] using balance

theorem merged (accounted : ledger.Accounted) (now : Int) : (ledger.step (.merged now)).Accounted := by
  have batched := accounted.batched
  cases phase : ledger.system.phase with
  | idle | writing _ _ =>
      have same : ledger.step (.merged now) = ledger := by
        simp only [step, StateSync.step, phase]
      rw [same]
      exact accounted
  | folding anchor rows =>
      simp only [Batched, phase] at batched
      refine ⟨?_, ?_, ?_, ?_⟩
      · simpa only [step, StateSync.step, phase, ThresholdPolicy.foldSnapshot] using accounted.persistent
      · simpa only [step, StateSync.step, phase] using accounted.tabled
      · simpa only [step, Batched, StateSync.step, phase] using batched
      · simpa only [step, StateSync.step, phase, ThresholdPolicy.foldSnapshot, ThresholdPolicy.pending,
          inStore] using accounted.balance

theorem step_iff (accounted : ledger.Accounted) (label : SyncLabel) :
    (ledger.step label).Accounted ↔ ledger.FailsEmpty label := by
  cases label with
  | evaluate action ctx now => exact iff_of_true (accounted.evaluate action ctx now) trivial
  | drain anchor => exact iff_of_true (accounted.drain anchor) trivial
  | stored ranking rows => exact iff_of_true (accounted.stored ranking rows).1 trivial
  | failed => exact accounted.failed_iff
  | merged now => exact iff_of_true (accounted.merged now) trivial

end Accounted

/-- The account balances in every state of the run, a failed sync leaves the buffer as
    it was before plus what came in meanwhile, and a sync that succeeds writes all it took. -/
structure NothingLost (ledger : Ledger) (labels : List SyncLabel) : Prop where
  accounted : Always step Accounted ledger labels
  refilled : ∀ before, before ++ [.failed] <+: labels →
    (((before ++ [.failed]).foldl step ledger).system.policy.pending : Multiset PendingUnit) =
      (before.foldl step ledger).batch + (before.foldl step ledger).system.policy.pending
  written : ∀ before ranking rows, before ++ [.stored ranking rows] <+: labels →
    (((before ++ [SyncLabel.stored ranking rows]).foldl step ledger).inStore +
        ((before ++ [SyncLabel.stored ranking rows]).foldl step ledger).removed : Multiset PendingUnit) =
      (before.foldl step ledger).inStore + (before.foldl step ledger).removed + (before.foldl step ledger).batch

theorem pending_failed (ledger : Ledger) :
    (ledger.step .failed).system.policy.pending = ledger.system.policy.pending := by
  cases phase : ledger.system.phase <;> simp only [step, StateSync.step, phase]

theorem batch_of_failsEmpty {ledger : Ledger} (accounted : ledger.Accounted) (nothing : ledger.FailsEmpty .failed) :
    ledger.batch = [] := by
  have batched := accounted.batched
  cases phase : ledger.system.phase with
  | idle | folding _ _ => simpa only [Batched, phase] using batched
  | writing anchor newEvents =>
      simp only [Batched, phase] at batched
      simpa only [FailsEmpty, phase, batched, List.map_eq_nil_iff] using nothing

/-- Over any run of decisions and sync steps, nothing is lost if and only if a sync
    fails only when it had drained nothing. -/
theorem nothingLost_iff (config : ThresholdConfig) (history : History) (table : List Sqlite.Row)
    (labels : List SyncLabel) :
    NothingLost (start config history table) labels ↔ EachStep step FailsEmpty (start config history table) labels := by
  have exact_run : Always step Accounted (start config history table) labels ↔
      EachStep step FailsEmpty (start config history table) labels :=
    always_iff_eachStep (accounted_start config history table) fun _ accounted label _ => accounted.step_iff label
  constructor
  · intro kept
    exact exact_run.mp kept.accounted
  · intro each
    have accounted := exact_run.mpr each
    refine ⟨accounted, ?_, ?_⟩
    · intro before inside
      have here := accounted.before before _ inside
      rw [List.foldl_append, List.foldl_cons, List.foldl_nil, pending_failed,
        batch_of_failsEmpty here (each before .failed inside), Multiset.coe_nil, zero_add]
    · intro before ranking rows inside
      have here := accounted.before before _ inside
      rw [List.foldl_append, List.foldl_cons, List.foldl_nil]
      exact (here.stored ranking rows).2

/-- One admitted unit is drained, and the store fails. -/
def failingRun : List SyncLabel :=
  [.evaluate ThresholdPolicy.lockAction ThresholdPolicy.agent 0, .drain ⟨1, 0⟩, .failed]

/-- After the failure the unit is nowhere: not pending, not in a batch, not stored. -/
theorem failingRun_loses : ¬ NothingLost (start ThresholdPolicy.minuteConfig .empty []) failingRun := by
  intro kept
  have balance := congrArg Multiset.card (kept.accounted _ (List.prefix_refl _)).balance
  revert balance
  decide +kernel

end Ledger

end AiProtect
