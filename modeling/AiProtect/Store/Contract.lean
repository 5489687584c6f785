import AiProtect.Lib.CappedStore
import AiProtect.Store.Sqlite

/-! # What a sync with SQLite comes to

`blocking_sync` runs its statements in one transaction, any of which may fail; the
transaction is then dropped and the table stays as it was. The contract is that of
`HistoryStore::sync`, stated for multisets of rows. The theorem says for which caps the
call meets it: the cap is a `usize`, and SQL gets it as an `i64`.
-/

namespace AiProtect

open CappedStore

namespace Sqlite

/-- What the steps of a transaction do to the rows: `BEGIN`, an `INSERT` for each event, the
    two `DELETE`s, the `SELECT` and the `COMMIT`. -/
def statements (ranking : List String) (newEvents : List Row) (cutoff : Int) (maxIdentities : Nat) :
    List (List Row → List Row) :=
  [id] ++ newEvents.map (fun row table => table ++ [row]) ++
    [fun table => table.filter fun row => decide (cutoff ≤ row.2),
      fun table => table.filter fun row => decide (row.1 ∉ beyondCap ranking maxIdentities), id, id]

/-- Run statements up to the one that fails, if one does. -/
def execute : Option Nat → List (List Row → List Row) → List Row → Option (List Row)
  | _, [], table => some table
  | some 0, _ :: _, _ => none
  | some (fault + 1), statement :: rest, table => execute (some fault) rest (statement table)
  | none, statement :: rest, table => execute none rest (statement table)

/-- What `sync_now` returns and the table it leaves, when the statement at `fault` fails. -/
def syncNow (fault : Option Nat) (ranking : List String) (table newEvents : List Row) (cutoff : Int)
    (maxIdentities : Nat) : Option Snapshot × List Row :=
  match execute fault (statements ranking newEvents cutoff maxIdentities) table with
  | none => (none, table)
  | some after => (some (collect (select after)), after)

/-- The map has the rows of the table, by identity, with multiplicity and in order. -/
structure Grouped (rows : Snapshot) (table : List Row) : Prop where
  named : ∀ identity, identity ∈ rows ↔ identity ∈ table.map Prod.fst
  same : ∀ identity, ((rows.lookup identity).getD []).Perm (timestamps table identity)
  ascending : ∀ identity, ((rows.lookup identity).getD []).Pairwise (· ≤ ·)

/-- The contract of a sync, for a call that fails and for one that succeeds. -/
def MeetsContract (table newEvents : List Row) (cutoff : Int) (maxIdentities : Nat)
    (outcome : Option Snapshot × List Row) : Prop :=
  match outcome.1 with
  | none => outcome.2 = table
  | some rows => Synced (table : Multiset Row) newEvents cutoff maxIdentities outcome.2 ∧ Grouped rows outcome.2

theorem mem_timestamps {table : List Row} {identity : String} {timestamp : Int} :
    timestamp ∈ timestamps table identity ↔ (identity, timestamp) ∈ table := by
  simp only [timestamps, List.mem_map, List.mem_filter, decide_eq_true_eq, Prod.exists, exists_eq_right]

theorem mem_owners_iff {table : List Row} {identity : String} :
    identity ∈ owners (table : Multiset Row) ↔ identity ∈ table.map Prod.fst := by
  rw [owners, Multiset.mem_toFinset, Multiset.map_coe, Multiset.mem_coe]

theorem noLater_iff {table : List Row} {first second : String} :
    NoLater table first second ↔ CappedStore.NoLater (table : Multiset Row) first second := by
  simp only [NoLater, CappedStore.NoLater, mem_timestamps, Multiset.mem_coe]

theorem isRanking_iff {table : List Row} {ranking : List String} :
    IsRanking table ranking ↔ Ranking (table : Multiset Row) ranking := by
  constructor
  · intro ranked
    refine ⟨ranked.once, fun identity => ?_, ranked.falling.imp noLater_iff.mp⟩
    rw [mem_owners_iff]
    exact ranked.complete identity
  · intro ranked
    refine ⟨ranked.once, fun identity => ?_, ranked.falling.imp noLater_iff.mpr⟩
    rw [← mem_owners_iff]
    exact ranked.complete identity

theorem live_coe (table newEvents : List Row) (cutoff : Int) :
    live (table : Multiset Row) newEvents cutoff =
      ((table ++ newEvents).filter fun row => decide (cutoff ≤ row.2) : List Row) := by
  rw [live, Multiset.coe_add, Multiset.filter_coe]

/-- Under a cap that an `i64` can hold, the rows of the first identities of the ranking stay. -/
theorem blockingSync_of_fits {ranking : List String} {table newEvents : List Row} {cutoff : Int}
    {maxIdentities : Nat} (fits : maxIdentities < 2 ^ 63)
    (ranked : IsRanking ((table ++ newEvents).filter fun row => decide (cutoff ≤ row.2)) ranking) :
    (blockingSync ranking table newEvents cutoff maxIdentities : Multiset Row) =
      restricted (live (table : Multiset Row) newEvents cutoff) (ranking.take maxIdentities).toFinset := by
  rw [live_coe, restricted, Multiset.filter_coe, blockingSync]
  refine congrArg (fun rows : List Row => (rows : Multiset Row)) (List.filter_congr ?_)
  intro row member
  have capped : beyondCap ranking maxIdentities = ranking.drop maxIdentities := by
    rw [beyondCap, wrapI64_of_fits (by omega) (by omega), Int.toNat_natCast]
  have inside : row.1 ∈ ranking := (ranked.complete row.1).mpr (List.mem_map_of_mem member)
  have once := ranked.once
  rw [← List.take_append_drop maxIdentities ranking, List.nodup_append] at once
  rw [← List.take_append_drop maxIdentities ranking, List.mem_append] at inside
  rw [capped, decide_eq_decide, List.mem_toFinset]
  constructor
  · intro kept
    exact inside.resolve_right kept
  · intro early late
    exact once.2.2 row.1 early row.1 late rfl

/-- A cap beyond `i64` is negative in SQL, and every identity ranks above it. -/
theorem blockingSync_of_wraps {ranking : List String} {table newEvents : List Row} {cutoff : Int}
    {maxIdentities : Nat} (large : 2 ^ 63 ≤ maxIdentities) (fits : maxIdentities < 2 ^ 64)
    (ranked : IsRanking ((table ++ newEvents).filter fun row => decide (cutoff ≤ row.2)) ranking) :
    blockingSync ranking table newEvents cutoff maxIdentities = [] := by
  have negative : beyondCap ranking maxIdentities = ranking := by
    have wrapped : (wrapI64 maxIdentities).toNat = 0 := by
      rw [wrapI64, Int.bmod_def]
      omega
    rw [beyondCap, wrapped, List.drop_zero]
  rw [blockingSync, List.filter_eq_nil_iff]
  intro row member kept
  rw [decide_eq_true_eq, negative] at kept
  exact kept ((ranked.complete row.1).mpr (List.mem_map_of_mem member))

theorem sorted_timestamps_select (table : List Row) (identity : String) :
    (timestamps (select table) identity).Pairwise (· ≤ ·) := by
  have total : Std.Total fun first second : Row => first.2 ≤ second.2 := ⟨fun _ _ => le_total _ _⟩
  have trans : IsTrans Row fun first second => first.2 ≤ second.2 := ⟨fun _ _ _ => le_trans⟩
  have sorted := List.pairwise_insertionSort (fun first second : Row => first.2 ≤ second.2) table
  exact List.pairwise_map.mpr (sorted.filter _)

theorem timestamps_eq_nil_iff {table : List Row} {identity : String} :
    timestamps table identity = [] ↔ identity ∉ table.map Prod.fst := by
  simp only [timestamps, List.map_eq_nil_iff, List.filter_eq_nil_iff, decide_eq_true_eq, List.mem_map, not_exists,
    not_and]

theorem lookup_collect_select (table : List Row) (identity : String) :
    (collect (select table)).lookup identity =
      if identity ∈ table.map Prod.fst then some (timestamps (select table) identity) else none := by
  have owned : timestamps (select table) identity = [] ↔ identity ∉ table.map Prod.fst := by
    have same : (select table).Perm table := List.perm_insertionSort _ _
    rw [timestamps_eq_nil_iff, (same.map Prod.fst).mem_iff]
  rw [collect, lookup_foldl_pushRow, AList.lookup_empty, Option.getD_none, List.nil_append]
  by_cases named : identity ∈ table.map Prod.fst
  · rw [if_pos named, if_neg fun nothing => owned.mp nothing named]
  · rw [if_neg named, if_pos (owned.mpr named)]

theorem grouped_collect (table : List Row) : Grouped (collect (select table)) table := by
  have rows : ∀ identity, ((collect (select table)).lookup identity).getD [] = timestamps (select table) identity := by
    intro identity
    rw [lookup_collect_select]
    split
    · rfl
    · rename_i absent
      have nothing := timestamps_eq_nil_iff.mpr absent
      exact (List.Perm.eq_nil (nothing ▸ timestamps_select_perm table identity)).symm
  refine ⟨?_, ?_, ?_⟩
  · intro identity
    rw [← AList.lookup_isSome, lookup_collect_select]
    split
    · rename_i named
      exact iff_of_true rfl named
    · rename_i absent
      exact iff_of_false Bool.false_ne_true absent
  · intro identity
    rw [rows]
    exact timestamps_select_perm table identity
  · intro identity
    rw [rows]
    exact sorted_timestamps_select table identity

theorem execute_none_or (fault : Option Nat) (steps : List (List Row → List Row))
    (table : List Row) :
    execute fault steps table = none ∨
      execute fault steps table = some (steps.foldl (fun table statement => statement table) table) := by
  induction steps generalizing fault table with
  | nil => exact .inr (by cases fault <;> rfl)
  | cons statement steps ih =>
      cases fault with
      | none => exact ih none (statement table)
      | some fault =>
          cases fault with
          | zero => exact .inl rfl
          | succ fault => exact ih (some fault) (statement table)

theorem execute_none (steps : List (List Row → List Row)) (table : List Row) :
    execute none steps table = some (steps.foldl (fun table statement => statement table) table) := by
  induction steps generalizing table with
  | nil => rfl
  | cons statement steps ih => exact ih (statement table)

theorem foldl_statements (ranking : List String) (table newEvents : List Row) (cutoff : Int)
    (maxIdentities : Nat) :
    (statements ranking newEvents cutoff maxIdentities).foldl (fun table statement => statement table) table =
      blockingSync ranking table newEvents cutoff maxIdentities := by
  have inserted : ∀ table : List Row,
      (newEvents.map (fun row table => table ++ [row])).foldl (fun table statement => statement table) table =
        table ++ newEvents := by
    intro table
    induction newEvents generalizing table with
    | nil => exact (List.append_nil table).symm
    | cons row rows ih =>
        rw [List.map_cons, List.foldl_cons, ih, List.append_assoc]
        rfl
  simp only [statements, List.foldl_append, List.foldl_cons, List.foldl_nil, id_eq, inserted, blockingSync]

/-- The contract comes down to what a call without a fault leaves. -/
theorem meetsContract_iff_synced (ranking : List String) (table newEvents : List Row) (cutoff : Int)
    (maxIdentities : Nat) :
    (∀ fault, MeetsContract table newEvents cutoff maxIdentities
        (syncNow fault ranking table newEvents cutoff maxIdentities)) ↔
      Synced (table : Multiset Row) newEvents cutoff maxIdentities
        (blockingSync ranking table newEvents cutoff maxIdentities) := by
  constructor
  · intro meets
    have met := meets none
    simp only [syncNow, execute_none, foldl_statements, MeetsContract] at met
    exact met.1
  · intro synced fault
    rcases execute_none_or fault (statements ranking newEvents cutoff maxIdentities) table with failed | done
    · simp only [syncNow, failed, MeetsContract]
    · rw [foldl_statements] at done
      simp only [syncNow, done, MeetsContract]
      exact ⟨synced, grouped_collect _⟩

/-- `sync_now` meets its contract, failing or not, if and only if an `i64` can hold the cap
    or no row is as young as the cutoff. -/
theorem sync_now_contract_iff {ranking : List String} {table newEvents : List Row} {cutoff : Int}
    {maxIdentities : Nat} (fits : maxIdentities < 2 ^ 64)
    (ranked : IsRanking ((table ++ newEvents).filter fun row => decide (cutoff ≤ row.2)) ranking) :
    (∀ fault, MeetsContract table newEvents cutoff maxIdentities
        (syncNow fault ranking table newEvents cutoff maxIdentities)) ↔
      maxIdentities < 2 ^ 63 ∨ ∀ row ∈ table ++ newEvents, row.2 < cutoff := by
  rw [meetsContract_iff_synced]
  have order : Ranking (live (table : Multiset Row) newEvents cutoff) ranking := by
    rw [live_coe]
    exact isRanking_iff.mp ranked
  by_cases small : maxIdentities < 2 ^ 63
  · refine iff_of_true ⟨_, order.capped maxIdentities, blockingSync_of_fits small ranked⟩ (.inl small)
  · rw [blockingSync_of_wraps (Nat.le_of_not_lt small) fits ranked, or_iff_right small]
    constructor
    · intro synced row member
      by_contra young
      have alive : row ∈ live (table : Multiset Row) newEvents cutoff := by
        rw [live_coe]
        exact List.mem_filter.mpr ⟨member, decide_eq_true (not_lt.mp young)⟩
      exact synced.ne_zero (by omega) alive rfl
    · intro old
      have dead : live (table : Multiset Row) newEvents cutoff = 0 := by
        rw [live_coe, Multiset.coe_eq_zero, List.filter_eq_nil_iff]
        intro row member young
        have before := old row member
        have after := of_decide_eq_true young
        omega
      refine ⟨_, order.capped maxIdentities, ?_⟩
      rw [restricted, dead, Multiset.filter_zero]
      rfl

/-- A row that is pruned, and room for one of two identities; once with no fault and once
    with a fault in the second `INSERT`. -/
theorem sync_now_contract_one_of_two :
    MeetsContract [("alice", 1)] [("bob", 5), ("alice", 7)] 2 1
        (syncNow none ["alice", "bob"] [("alice", 1)] [("bob", 5), ("alice", 7)] 2 1) ∧
      MeetsContract [("alice", 1)] [("bob", 5), ("alice", 7)] 2 1
        (syncNow (some 2) ["alice", "bob"] [("alice", 1)] [("bob", 5), ("alice", 7)] 2 1) := by
  have meets := (sync_now_contract_iff (by decide) (by decide +kernel :
    IsRanking (([("alice", 1)] ++ [("bob", 5), ("alice", 7)] : List Row).filter fun row => decide (2 ≤ row.2))
      ["alice", "bob"])).mpr (.inl (by decide : 1 < 2 ^ 63))
  exact ⟨meets none, meets (some 2)⟩

def oneEvent : List Row := [("alice", 1000)]

/-- Under the largest cap a row is inserted and deleted again. -/
theorem sync_now_largest_cap_deletes_all :
    IsRanking (oneEvent.filter fun row => decide (0 ≤ row.2)) ["alice"] ∧
      (syncNow none ["alice"] [] oneEvent 0 (2 ^ 64 - 1)).2 = [] ∧
      ¬ MeetsContract [] oneEvent 0 (2 ^ 64 - 1) (syncNow none ["alice"] [] oneEvent 0 (2 ^ 64 - 1)) := by
  have emptied : (syncNow none ["alice"] [] oneEvent 0 (2 ^ 64 - 1)).2 = [] := by decide +kernel
  have succeeded : (syncNow none ["alice"] [] oneEvent 0 (2 ^ 64 - 1)).1.isSome = true := by decide +kernel
  have alive : ("alice", (1000 : Int)) ∈ live (([] : List Row) : Multiset Row) oneEvent 0 := by decide +kernel
  refine ⟨by decide +kernel, emptied, ?_⟩
  intro meets
  obtain ⟨rows, found⟩ := Option.isSome_iff_exists.mp succeeded
  simp only [MeetsContract, found, emptied] at meets
  exact meets.1.ne_zero (by decide) alive rfl

end Sqlite

end AiProtect
