import AiProtect.Store.Anchor
import Mathlib.Data.List.Sort

/-! # The SQLite history store

The table is the list of its rows. What SQL leaves open is an argument: the
ranking of identities whose last activity is the same, and the order in which the
caller iterates over the map it gets back.
-/

namespace AiProtect

namespace Sqlite

/-- An identity and the epoch milliseconds of one admitted unit. -/
abbrev Row := String × Int

/-- The timestamps of one identity, in the order of the rows. -/
def timestamps (rows : List Row) (identity : String) : List Int :=
  (rows.filter fun row => row.1 = identity).map Prod.snd

/-- `MAX(timestamp_millis)` of `second` is at most that of `first`. -/
def NoLater (table : List Row) (first second : String) : Prop :=
  ∀ late ∈ timestamps table second, ∃ timestamp ∈ timestamps table first, late ≤ timestamp

instance (table : List Row) (first second : String) : Decidable (NoLater table first second) :=
  inferInstanceAs (Decidable (∀ late ∈ timestamps table second, _))

/-- A result of `ROW_NUMBER() OVER (ORDER BY MAX(timestamp_millis) DESC)`. -/
structure IsRanking (table : List Row) (ranking : List String) : Prop where
  once : ranking.Nodup
  complete : ∀ identity, identity ∈ ranking ↔ identity ∈ table.map Prod.fst
  falling : ranking.Pairwise (NoLater table)

instance (table : List Row) (ranking : List String) : Decidable (IsRanking table ranking) :=
  decidable_of_iff (ranking.Nodup ∧ ((∀ identity ∈ ranking, identity ∈ table.map Prod.fst) ∧
      ∀ identity ∈ table.map Prod.fst, identity ∈ ranking) ∧
      ranking.Pairwise (NoLater table))
    ⟨fun ⟨once, ⟨there, back⟩, falling⟩ => ⟨once, fun identity => ⟨there identity, back identity⟩, falling⟩,
      fun ⟨once, complete, falling⟩ =>
        ⟨once, ⟨fun identity => (complete identity).mp, fun identity => (complete identity).mpr⟩, falling⟩⟩

/-- The identities whose rank is above the cap, which is passed as an `i64`. -/
def beyondCap (ranking : List String) (maxIdentities : Nat) : List String :=
  ranking.drop (wrapI64 maxIdentities).toNat

/-- The rows that neither `DELETE` of a sync removes. -/
def keeps (ranking : List String) (cutoff : Int) (maxIdentities : Nat) (row : Row) : Bool :=
  decide (cutoff ≤ row.2) && decide (row.1 ∉ beyondCap ranking maxIdentities)

/-- The table after the two deletions: rows below the cutoff, then identities past the cap. -/
def blockingSync (ranking : List String) (table newEvents : List Row) (cutoff : Int) (maxIdentities : Nat) :
    List Row :=
  let inserted := table ++ newEvents
  let pruned := inserted.filter fun row => decide (cutoff ≤ row.2)
  pruned.filter fun row => decide (row.1 ∉ beyondCap ranking maxIdentities)

def select (table : List Row) : List Row := table.insertionSort fun first second => first.2 ≤ second.2

def pushRow (rows : Snapshot) (row : Row) : Snapshot :=
  rows.insert row.1 ((rows.lookup row.1).getD [] ++ [row.2])

def collect (rows : List Row) : Snapshot := rows.foldl pushRow ∅

/-- A snapshot of the table, in some iteration order. -/
def Answers (rows : Snapshot) (table : List Row) : Prop :=
  rows.entries.Perm (collect (select table)).entries

instance (rows : Snapshot) (table : List Row) : Decidable (Answers rows table) :=
  inferInstanceAs (Decidable (List.Perm _ _))

theorem blockingSync_eq (ranking : List String) (table newEvents : List Row) (cutoff : Int)
    (maxIdentities : Nat) : blockingSync ranking table newEvents cutoff maxIdentities =
      (table ++ newEvents).filter (keeps ranking cutoff maxIdentities) := by
  rw [blockingSync, List.filter_filter]
  apply List.filter_congr
  intro row _
  rw [keeps, Bool.and_comm]

theorem timestamps_append (rows more : List Row) (identity : String) :
    timestamps (rows ++ more) identity = timestamps rows identity ++ timestamps more identity := by
  simp only [timestamps, List.filter_append, List.map_append]

theorem lookup_foldl_pushRow (rows : List Row) (start : Snapshot) (identity : String) :
    (rows.foldl pushRow start).lookup identity =
      if timestamps rows identity = [] then start.lookup identity
      else some ((start.lookup identity).getD [] ++ timestamps rows identity) := by
  induction rows generalizing start with
  | nil => rfl
  | cons row rows ih =>
      rw [List.foldl_cons, ih]
      by_cases mine : identity = row.1
      · have here : timestamps (row :: rows) identity = row.2 :: timestamps rows identity := by
          simp only [timestamps, mine, decide_true, List.filter_cons_of_pos, List.map_cons]
        have pushed : (pushRow start row).lookup identity = some ((start.lookup identity).getD [] ++ [row.2]) := by
          rw [pushRow, mine, AList.lookup_insert]
        rw [here, pushed]
        by_cases last : timestamps rows identity = []
        · simp [last]
        · simp [last]
      · have here : timestamps (row :: rows) identity = timestamps rows identity := by
          simp only [timestamps, Ne.symm mine, decide_false, Bool.false_eq_true, not_false_eq_true,
            List.filter_cons_of_neg]
        have pushed : (pushRow start row).lookup identity = start.lookup identity := by
          rw [pushRow, AList.lookup_insert_ne mine]
        rw [here, pushed]

theorem timestamps_select_perm (table : List Row) (identity : String) :
    (timestamps (select table) identity).Perm (timestamps table identity) :=
  ((List.perm_insertionSort _ _).filter _).map _

end Sqlite

end AiProtect
