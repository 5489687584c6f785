import AiProtect.Store.Contract
import AiProtect.Store.ValkeyAlone

/-! # The two backends as one store

Any number of instances sync, one call at a time, and the calls go either to a Valkey
server or to one SQLite file. The server has a set of members for each identity, the file
a bag of rows. As long as no `ZADD` names a member that its set already has, each call
returns the same and leaves the same timestamps in both; which of several identities tied
at the cap is dropped is the one that the order of the keys makes stalest.
-/

namespace AiProtect

open SortedSets ValkeySync Sqlite

/-- One call of `HistoryStore::sync`, by the instance `store`. -/
structure SyncCall where
  store : Nat
  newEvents : List Row
  cutoff : Int
  maxIdentities : Nat
  deriving DecidableEq, Repr

/-- The set of each identity has the timestamps of its rows as scores. -/
def Stores (keyStart : String) (server : Server) (table : List Row) : Prop :=
  ∀ identity, (server (keyStart ++ identity)).val.map (fun entry => (ofLex entry).1) =
    (timestamps table identity : Multiset Int)

/-- No `ZADD` names a member that its set has when the command is run. -/
def Fresh : Server → List ZAdd → Prop
  | _, [] => True
  | server, event :: events =>
      (∀ entry ∈ server event.key, (ofLex entry).2 ≠ event.member) ∧
        Fresh (server.zadd event.key event.score event.member) events

instance decidableFresh : (server : Server) → (events : List ZAdd) → Decidable (Fresh server events)
  | _, [] => inferInstanceAs (Decidable True)
  | server, event :: events =>
      have := decidableFresh (server.zadd event.key event.score event.member) events
      inferInstanceAs (Decidable (_ ∧ _))

/-- The `ZADD` writes the row. -/
def Writes (keyStart : String) (event : ZAdd) (row : Row) : Prop :=
  event.key = keyStart ++ row.1 ∧ event.score = row.2

variable {matched : String → String → Prop} {keyPrefix keyStart : String} {server after : Server}
  {table newEvents : List Row} {cutoff : Int} {maxIdentities : Nat} {held rows : Snapshot}
  {memberSeq : Nat → Nat} {calls : List SyncCall} {trace : List (Snapshot × Server)}

theorem forall₂_zadds (keyStart : String) (seq : Nat) (newEvents : List Row) :
    List.Forall₂ (Writes keyStart) (Valkey.zadds keyStart seq newEvents) newEvents := by
  have shifted : ∀ (rows : List Row) (offset : Nat), List.Forall₂ (Writes keyStart)
      ((rows.zipIdx offset).map fun event => ⟨keyStart ++ event.1.1, event.1.2,
        s!"{event.1.2}-{(seq + event.2) % 2 ^ 64}"⟩) rows := by
    intro rows
    induction rows with
    | nil => exact fun _ => .nil
    | cons row rows ih => exact fun offset => .cons ⟨rfl, rfl⟩ (ih (offset + 1))
  exact shifted newEvents 0

theorem Stores.zadd (stores : Stores keyStart server table) {event : ZAdd} {row : Row}
    (writes : Writes keyStart event row)
    (fresh : ∀ entry ∈ server event.key, (ofLex entry).2 ≠ event.member) :
    Stores keyStart (server.zadd event.key event.score event.member) (table ++ [row]) := by
  intro identity
  rw [timestamps_append, ← Multiset.coe_add, ← stores identity]
  obtain ⟨key, score⟩ := writes
  by_cases same : identity = row.1
  · have kept : (server event.key).filter (fun entry => (ofLex entry).2 ≠ event.member) =
        server event.key := Finset.filter_true_of_mem fresh
    have absent : toLex (event.score, event.member) ∉ server event.key :=
      fun there => fresh _ there rfl
    have added : timestamps [row] identity = [row.2] := by
      simp only [timestamps, same, decide_true, List.filter_cons_of_pos, List.filter_nil,
        List.map_cons, List.map_nil]
    rw [same, ← key, Keyspace.zadd, Keyspace.put_self, kept, Finset.insert_val_of_notMem absent,
      Multiset.map_cons, ofLex_toLex, ← same, added, score, Multiset.coe_singleton, add_comm,
      Multiset.singleton_add]
  · have added : timestamps [row] identity = [] := by
      simp only [timestamps, Ne.symm same, decide_false, Bool.false_eq_true, not_false_eq_true,
        List.filter_cons_of_neg, List.filter_nil, List.map_nil]
    have apart : keyStart ++ identity ≠ event.key := by
      rw [key]
      exact fun equal => same ((String.append_right_inj keyStart).mp equal)
    rw [Keyspace.zadd, Keyspace.put_of_ne _ apart, added, Multiset.coe_nil, add_zero]

theorem Stores.addAll {events : List ZAdd} {rows : List Row}
    (writes : List.Forall₂ (Writes keyStart) events rows) :
    ∀ {server : Server} {table : List Row}, Stores keyStart server table → Fresh server events →
      Stores keyStart (addAll server events) (table ++ rows) := by
  induction writes with
  | nil =>
      intro server table stores _
      rw [List.append_nil]
      exact stores
  | @cons event row events rows first _ ih =>
      intro server table stores fresh
      have rest := ih (stores.zadd first fresh.1) fresh.2
      rwa [List.append_assoc] at rest

theorem timestamps_filter_young (table : List Row) (cutoff : Int) (identity : String) :
    timestamps (table.filter fun row => decide (cutoff ≤ row.2)) identity =
      (timestamps table identity).filter fun timestamp => decide (cutoff ≤ timestamp) := by
  rw [timestamps, timestamps, List.filter_map, List.filter_filter, List.filter_filter]
  simp only [Function.comp_def, Bool.and_comm]

/-- Pruning by age keeps the sets and the rows together. -/
theorem Stores.young (stores : Stores keyStart server table) (cutoff : Int) (identity : String) :
    (young cutoff (server (keyStart ++ identity))).val.map (fun entry => (ofLex entry).1) =
      (timestamps (table.filter fun row => decide (cutoff ≤ row.2)) identity : Multiset Int) := by
  rw [timestamps_filter_young, ← Multiset.filter_coe, ← stores identity, Multiset.filter_map,
    ValkeySync.young, Finset.filter_val]
  rfl

theorem coe_scores (set : SortedSet Int String) :
    (scores set : Multiset Int) = set.val.map fun entry => (ofLex entry).1 := by
  rw [scores, ← Multiset.map_coe, Finset.sort_eq]

theorem sorted_scores (set : SortedSet Int String) : (scores set).Pairwise (· ≤ ·) := by
  rw [scores, List.pairwise_map]
  refine (Finset.pairwise_sort set (· ≤ ·)).imp ?_
  intro first second le
  rcases Prod.Lex.le_iff.mp le with less | ⟨same, -⟩
  · exact le_of_lt less
  · exact le_of_eq same

theorem Sqlite.Grouped.lookup_eq_none_iff (grouped : Grouped rows table) {identity : String} :
    rows.lookup identity = none ↔ timestamps table identity = [] := by
  rw [AList.lookup_eq_none, timestamps_eq_nil_iff, grouped.named]

/-- A map is the grouped table if it has a sorted list of each identity that has rows. -/
theorem grouped_of_lookup
    (lookup : ∀ identity, rows.lookup identity = none ∧ timestamps table identity = [] ∨
      ∃ list, rows.lookup identity = some list ∧ list ≠ [] ∧ list.Perm (timestamps table identity) ∧
        list.Pairwise (· ≤ ·)) : Grouped rows table where
  named := by
    intro identity
    rw [← not_iff_not, ← timestamps_eq_nil_iff, ← AList.lookup_eq_none]
    rcases lookup identity with ⟨absent, nothing⟩ | ⟨list, there, nonempty, perm, -⟩
    · exact iff_of_true absent nothing
    · refine iff_of_false (by rw [there]; exact Option.some_ne_none list) ?_
      intro nothing
      rw [nothing] at perm
      exact nonempty perm.eq_nil
  same := by
    intro identity
    rcases lookup identity with ⟨absent, nothing⟩ | ⟨list, there, -, perm, -⟩
    · rw [absent, nothing, Option.getD_none]
    · rw [there, Option.getD_some]
      exact perm
  ascending := by
    intro identity
    rcases lookup identity with ⟨absent, -⟩ | ⟨list, there, -, -, ascending⟩
    · rw [absent, Option.getD_none]
      exact .nil
    · rw [there, Option.getD_some]
      exact ascending

/-- Two maps of one grouped table have the same lists. -/
theorem Sqlite.Grouped.lookup_eq {other : Snapshot} (first : Grouped rows table)
    (second : Grouped other table) (identity : String) :
    rows.lookup identity = other.lookup identity := by
  have same : (rows.lookup identity).getD [] = (other.lookup identity).getD [] :=
    ((first.same identity).trans (second.same identity).symm).eq_of_pairwise
      (fun _ _ _ _ => le_antisymm) (first.ascending identity) (second.ascending identity)
  by_cases nothing : timestamps table identity = []
  · rw [first.lookup_eq_none_iff.mpr nothing, second.lookup_eq_none_iff.mpr nothing]
  · obtain ⟨list, here⟩ := Option.ne_none_iff_exists'.mp
      fun absent => nothing (first.lookup_eq_none_iff.mp absent)
    obtain ⟨others, there⟩ := Option.ne_none_iff_exists'.mp
      fun absent => nothing (second.lookup_eq_none_iff.mp absent)
    rw [here, there, Option.getD_some, Option.getD_some] at same
    rw [here, there, same]

/-- The map a sync has built before the cap is the pruned table, grouped. -/
theorem grouped_held (stores : Stores keyStart server table)
    (outcome : Outcome server keyStart cutoff maxIdentities held after rows) :
    Grouped held (table.filter fun row => decide (cutoff ≤ row.2)) := by
  refine grouped_of_lookup fun identity => ?_
  have same := stores.young cutoff identity
  rw [outcome.read identity]
  by_cases empty : young cutoff (server (keyStart ++ identity)) = ∅
  · rw [empty, Finset.empty_val, Multiset.map_zero, eq_comm, Multiset.coe_eq_zero] at same
    exact .inl ⟨if_pos empty, same⟩
  · rw [← coe_scores, Multiset.coe_eq_coe] at same
    refine .inr ⟨_, if_neg empty, ?_, same, sorted_scores _⟩
    intro nothing
    have vanished := coe_scores (young cutoff (server (keyStart ++ identity)))
    rw [nothing, Multiset.coe_nil, eq_comm, Multiset.map_eq_zero, Finset.val_eq_zero] at vanished
    exact empty vanished

/-- The identities of a map, the stalest first. -/
def byLastSeen (rows : Snapshot) : List String :=
  ((rows.entries.map fun entry => (entry.1, lastSeen entry.2)).mergeSort fun first second =>
    decide (first.2 ≤ second.2)).map Prod.fst

theorem length_byLastSeen (rows : Snapshot) : (byLastSeen rows).length = rows.entries.length := by
  rw [byLastSeen, List.length_map, (List.mergeSort_perm _ _).length_eq, List.length_map]

theorem stalest_eq (maxIdentities : Nat) (rows : Snapshot) :
    stalest maxIdentities rows =
      (byLastSeen rows).take ((byLastSeen rows).length - maxIdentities) := by
  rw [length_byLastSeen, stalest, byLastSeen, List.map_take]

theorem byLastSeen_perm (rows : Snapshot) : (byLastSeen rows).Perm rows.keys := by
  have sorted := (List.mergeSort_perm (rows.entries.map fun entry => (entry.1, lastSeen entry.2))
    fun first second => decide (first.2 ≤ second.2)).map Prod.fst
  rw [List.map_map] at sorted
  exact sorted

/-- The last timestamp of an ascending list is the largest. -/
theorem lastSeen_spec {list : List Int} (ascending : list.Pairwise (· ≤ ·)) (nonempty : list ≠ []) :
    lastSeen list ∈ list ∧ ∀ timestamp ∈ list, timestamp ≤ lastSeen list := by
  obtain ⟨front, last, rfl⟩ := (List.eq_nil_or_concat' list).resolve_left nonempty
  have latest : lastSeen (front ++ [last]) = last := by
    rw [lastSeen, List.getLast?_append_of_ne_nil _ (List.cons_ne_nil last []),
      List.getLast?_singleton, Option.getD_some]
  rw [latest]
  refine ⟨List.mem_append_right _ List.mem_cons_self, ?_⟩
  intro timestamp member
  rcases List.mem_append.mp member with early | final
  · exact (List.pairwise_append.mp ascending).2.2 timestamp early last List.mem_cons_self
  · exact le_of_eq (List.mem_singleton.mp final)

theorem Sqlite.Grouped.lastSeen_max (grouped : Grouped rows table) {identity : String}
    {list : List Int} (found : rows.lookup identity = some list) :
    lastSeen list ∈ timestamps table identity ∧
      ∀ timestamp ∈ timestamps table identity, timestamp ≤ lastSeen list := by
  have perm := grouped.same identity
  have ascending := grouped.ascending identity
  rw [found, Option.getD_some] at perm ascending
  have nonempty : list ≠ [] := by
    rintro rfl
    have absent := grouped.lookup_eq_none_iff.mpr perm.symm.eq_nil
    rw [found] at absent
    cases absent
  obtain ⟨inside, largest⟩ := lastSeen_spec ascending nonempty
  refine ⟨perm.mem_iff.mp inside, ?_⟩
  exact fun timestamp member => largest timestamp (perm.mem_iff.mpr member)

/-- Sorting by last activity gives a ranking that SQL may use. -/
theorem isRanking_byLastSeen (grouped : Grouped rows table) :
    IsRanking table (byLastSeen rows).reverse where
  once := List.nodup_reverse.mpr ((byLastSeen_perm rows).nodup_iff.mpr rows.keys_nodup)
  complete := by
    intro identity
    rw [List.mem_reverse, (byLastSeen_perm rows).mem_iff, ← grouped.named identity, AList.mem_keys]
  falling := by
    rw [List.pairwise_reverse, byLastSeen, List.pairwise_map]
    refine List.Pairwise.imp_of_mem ?_ (List.pairwise_mergeSort ?_ ?_ _)
    · intro first second early late order
      obtain ⟨stale, inside, rfl⟩ := List.mem_map.mp (List.mem_mergeSort.mp early)
      obtain ⟨recent, there, rfl⟩ := List.mem_map.mp (List.mem_mergeSort.mp late)
      have earlier := (grouped.lastSeen_max (AList.mem_lookup_iff.mpr inside)).2
      have latest := (grouped.lastSeen_max (AList.mem_lookup_iff.mpr there)).1
      intro timestamp member
      exact ⟨_, latest, (earlier timestamp member).trans (of_decide_eq_true order)⟩
    · simp only [decide_eq_true_eq]
      exact fun _ _ _ => le_trans
    · simp only [Bool.or_eq_true, decide_eq_true_eq]
      exact fun _ _ => le_total _ _

/-- With that ranking, SQL deletes the identities that the Valkey store deletes. -/
theorem blockingSync_byLastSeen (fits : maxIdentities < 2 ^ 63) (held : Snapshot) :
    blockingSync (byLastSeen held).reverse table newEvents cutoff maxIdentities =
      ((table ++ newEvents).filter fun row => decide (cutoff ≤ row.2)).filter
        fun row => decide (row.1 ∉ stalest maxIdentities held) := by
  have capped : beyondCap (byLastSeen held).reverse maxIdentities =
      (stalest maxIdentities held).reverse := by
    rw [beyondCap, wrapI64_of_fits (by omega) (by omega), Int.toNat_natCast, List.drop_reverse,
      stalest_eq]
  simp only [blockingSync, capped, List.mem_reverse]

theorem timestamps_filter_notMem (table : List Row) (gone : List String) (identity : String) :
    timestamps (table.filter fun row => decide (row.1 ∉ gone)) identity =
      if identity ∈ gone then [] else timestamps table identity := by
  rw [timestamps, List.filter_filter]
  by_cases out : identity ∈ gone
  · rw [if_pos out, List.map_eq_nil_iff, List.filter_eq_nil_iff]
    intro row _ both
    simp only [Bool.and_eq_true, decide_eq_true_eq] at both
    exact both.2 (both.1 ▸ out)
  · rw [if_neg out, timestamps]
    refine congrArg _ (List.filter_congr fun row _ => ?_)
    by_cases mine : row.1 = identity
    · simp only [mine, out, not_false_eq_true, decide_true, Bool.and_self]
    · simp only [mine, decide_false, Bool.false_and]

/-- One call on both sides: the same is stored and the same is returned. -/
theorem sync_agrees (stores : Stores keyStart server (table ++ newEvents))
    (fits : maxIdentities < 2 ^ 63)
    (outcome : Outcome server keyStart cutoff maxIdentities held after rows) :
    Stores keyStart after
        (blockingSync (byLastSeen held).reverse table newEvents cutoff maxIdentities) ∧
      Grouped rows (blockingSync (byLastSeen held).reverse table newEvents cutoff maxIdentities) := by
  have grouped := grouped_held stores outcome
  rw [blockingSync_byLastSeen fits]
  constructor
  · intro identity
    rw [outcome.stored, timestamps_filter_notMem]
    by_cases out : identity ∈ stalest maxIdentities held
    · rw [if_pos out, if_pos out, Finset.empty_val, Multiset.map_zero, Multiset.coe_nil]
    · rw [if_neg out, if_neg out]
      exact stores.young cutoff identity
  · refine grouped_of_lookup fun identity => ?_
    rw [outcome.returned, timestamps_filter_notMem]
    by_cases out : identity ∈ stalest maxIdentities held
    · exact .inl ⟨if_pos out, if_pos out⟩
    · rw [if_neg out, if_neg out]
      cases found : held.lookup identity with
      | none => exact .inl ⟨rfl, grouped.lookup_eq_none_iff.mp found⟩
      | some list =>
          have perm := grouped.same identity
          have ascending := grouped.ascending identity
          rw [found, Option.getD_some] at perm ascending
          refine .inr ⟨list, rfl, ?_, perm, ascending⟩
          exact List.ne_nil_of_mem (perm.mem_iff.mpr (grouped.lastSeen_max found).1)

namespace SyncCall

/-- Timestamps that are exact as scores, which are doubles, and a cap that an `i64` can hold. -/
def InRange (call : SyncCall) : Prop :=
  (∀ event ∈ call.newEvents, 0 ≤ event.2 ∧ event.2 < 2 ^ 53) ∧ call.maxIdentities < 2 ^ 63

instance (call : SyncCall) : Decidable call.InRange := inferInstanceAs (Decidable (_ ∧ _))

/-- The `ZADD`s of a call whose instance has handed out `memberSeq call.store` members. -/
def zadds (keyPrefix : String) (memberSeq : Nat → Nat) (call : SyncCall) : List ZAdd :=
  Valkey.zadds (keyPrefix ++ ":history:") (memberSeq call.store) call.newEvents

def begun (keyPrefix : String) (memberSeq : Nat → Nat) (call : SyncCall) : ValkeySync :=
  ⟨keyPrefix ++ ":history:", call.cutoff, call.maxIdentities,
    addPhase (call.zadds keyPrefix memberSeq)⟩

/-- Each instance counts the members it has handed out. -/
def counted (memberSeq : Nat → Nat) (call : SyncCall) : Nat → Nat :=
  fun other =>
    if other = call.store then memberSeq call.store + call.newEvents.length else memberSeq other

end SyncCall

/-- What the calls return and leave on a Valkey server, each run to its end before the next. -/
inductive ValkeyRuns (matched : String → String → Prop) (keyPrefix : String) :
    Server → (Nat → Nat) → List SyncCall → List (Snapshot × Server) → Prop where
  | nil {server : Server} {memberSeq : Nat → Nat} :
      ValkeyRuns matched keyPrefix server memberSeq [] []
  | cons {server after : Server} {memberSeq : Nat → Nat} {call : SyncCall} {calls : List SyncCall}
      {rows : Snapshot} {trace : List (Snapshot × Server)}
      (completes : Completes matched server (call.begun keyPrefix memberSeq) after rows)
      (rest : ValkeyRuns matched keyPrefix after (call.counted memberSeq) calls trace) :
      ValkeyRuns matched keyPrefix server memberSeq (call :: calls) ((rows, after) :: trace)

/-- A sync that completes is a run of the machine in which only its own commands are sent. -/
theorem ValkeySync.Completes.replayed {sync : ValkeySync}
    (completes : Completes matched server sync after rows) (i : Nat) :
    ∀ {valkey : Valkey}, valkey.server = server → valkey.syncs[i]? = some sync →
      ∃ replies : List (Nat × List String),
        ((replies.map (ValkeyLabel.run i)).foldl Valkey.step valkey).server = after ∧
        ((replies.map (ValkeyLabel.run i)).foldl Valkey.step valkey).memberSeq = valkey.memberSeq ∧
        (((replies.map (ValkeyLabel.run i)).foldl Valkey.step valkey).syncs[i]?).map
          ValkeySync.phase = some (.returned rows) := by
  induction completes with
  | done returned =>
      intro valkey here found
      refine ⟨[], here, rfl, ?_⟩
      rw [List.map_nil, List.foldl_nil, found, Option.map_some, returned]
  | @sent server after sync rows command reply sends _ _ ih =>
      intro valkey here found
      have ran : (valkey.step (.run i reply)).server = command.run server := by
        simp only [Valkey.step, found, sends, Option.map_some, Option.getD_some, here]
      have next : (valkey.step (.run i reply)).syncs[i]? = some (sync.resume server reply) := by
        obtain ⟨bound, -⟩ := List.getElem?_eq_some_iff.mp found
        simp only [Valkey.step, found, List.getElem?_set_self bound, here]
      have counters : (valkey.step (.run i reply)).memberSeq = valkey.memberSeq := by
        simp only [Valkey.step, found]
      obtain ⟨replies, there, same, returned⟩ := ih ran next
      exact ⟨reply :: replies, there, same.trans counters, returned⟩

/-- A run of calls is a run of the machine, up to the server that the last call leaves. -/
theorem ValkeyRuns.replayed
    (runs : ValkeyRuns matched keyPrefix server memberSeq calls trace) :
    ∀ {valkey : Valkey}, valkey.server = server → valkey.memberSeq = memberSeq →
      ∃ labels : List ValkeyLabel,
        (labels.foldl Valkey.step valkey).server =
          trace.foldl (fun _ outcome => outcome.2) server := by
  induction runs with
  | nil => exact fun here _ => ⟨[], here⟩
  | @cons server after memberSeq call calls rows trace completes _ ih =>
      intro valkey here counters
      let begun := valkey.step
        (.start call.store keyPrefix call.newEvents call.cutoff call.maxIdentities)
      have found : begun.syncs[valkey.syncs.length]? = some (call.begun keyPrefix memberSeq) := by
        rw [← counters]
        exact List.getElem?_concat_length
      have unchanged : begun.server = server := here
      have counted : begun.memberSeq = call.counted memberSeq := by
        rw [← counters]
        rfl
      obtain ⟨replies, there, same, -⟩ := completes.replayed valkey.syncs.length unchanged found
      obtain ⟨labels, last⟩ := ih there (same.trans counted)
      refine ⟨.start call.store keyPrefix call.newEvents call.cutoff call.maxIdentities ::
        (replies.map (ValkeyLabel.run valkey.syncs.length) ++ labels), ?_⟩
      rw [List.foldl_cons, List.foldl_append]
      exact last

/-- What they return and leave in a SQLite file, with any ranking SQL may use. -/
inductive SqliteRuns : List Row → List SyncCall → List (Snapshot × List Row) → Prop where
  | nil {table : List Row} : SqliteRuns table [] []
  | cons {table after : List Row} {call : SyncCall} {calls : List SyncCall}
      {ranking : List String} {rows : Snapshot} {trace : List (Snapshot × List Row)}
      (ranked : IsRanking
        ((table ++ call.newEvents).filter fun row => decide (call.cutoff ≤ row.2)) ranking)
      (synced : syncNow none ranking table call.newEvents call.cutoff call.maxIdentities =
        (some rows, after))
      (rest : SqliteRuns after calls trace) :
      SqliteRuns table (call :: calls) ((rows, after) :: trace)

/-- In each call of a run on a Valkey server, every `ZADD` names a new member. -/
def FreshRun (keyPrefix : String) :
    Server → (Nat → Nat) → List SyncCall → List (Snapshot × Server) → Prop
  | server, memberSeq, call :: calls, (_, after) :: trace =>
      Fresh server (call.zadds keyPrefix memberSeq) ∧
        FreshRun keyPrefix after (call.counted memberSeq) calls trace
  | _, _, _, _ => True

/-- The same lists of timestamps are returned and the same timestamps are stored. -/
structure SameOutcome (keyStart : String) (valkey : Snapshot × Server)
    (sqlite : Snapshot × List Row) : Prop where
  returned : ∀ identity, valkey.1.lookup identity = sqlite.1.lookup identity
  stored : Stores keyStart valkey.2 sqlite.2

theorem syncNow_none (ranking : List String) (table newEvents : List Row) (cutoff : Int)
    (maxIdentities : Nat) :
    syncNow none ranking table newEvents cutoff maxIdentities =
      (some (collect (select (blockingSync ranking table newEvents cutoff maxIdentities))),
        blockingSync ranking table newEvents cutoff maxIdentities) := by
  simp only [syncNow, execute_none, foldl_statements]

theorem ValkeyRuns.agree (globs : Globs matched) (plain : Plain keyPrefix)
    (runs : ValkeyRuns matched keyPrefix server memberSeq calls trace)
    (range : ∀ call ∈ calls, call.InRange)
    (fresh : FreshRun keyPrefix server memberSeq calls trace) :
    ∀ {table : List Row}, Stores (keyPrefix ++ ":history:") server table →
      ∃ other, SqliteRuns table calls other ∧
        List.Forall₂ (SameOutcome (keyPrefix ++ ":history:")) trace other := by
  induction runs with
  | nil => exact fun _ => ⟨[], .nil, .nil⟩
  | @cons server after memberSeq call calls rows trace completes rest ih =>
      intro table stores
      obtain ⟨held, outcome⟩ := completes.outcome globs ((plain_keyStart_iff _).mpr plain)
      have added := Stores.addAll (forall₂_zadds _ _ call.newEvents) stores fresh.1
      have ranked := isRanking_byLastSeen (grouped_held added outcome)
      obtain ⟨stored, grouped⟩ := sync_agrees added (range call List.mem_cons_self).2 outcome
      have rangeRest := fun call member => range call (List.mem_cons_of_mem _ member)
      obtain ⟨other, onward, same⟩ := ih rangeRest fresh.2 stored
      exact ⟨_, .cons ranked (syncNow_none _ _ _ _ _) onward,
        .cons ⟨grouped.lookup_eq (grouped_collect _), stored⟩ same⟩

/-- Every sequence of calls can be run to its end. -/
theorem exists_valkeyRuns (globs : Globs matched) (plain : Plain keyPrefix)
    (calls : List SyncCall) :
    ∀ {server : Server} (memberSeq : Nat → Nat), (InUse server).Finite →
      ∃ trace, ValkeyRuns matched keyPrefix server memberSeq calls trace := by
  induction calls with
  | nil => exact fun _ _ => ⟨[], .nil⟩
  | cons call calls ih =>
      intro server memberSeq finite
      obtain ⟨after, rows, completes⟩ := exists_completes globs ((plain_keyStart_iff _).mpr plain) finite
        call.maxIdentities (call.zadds keyPrefix memberSeq)
      obtain ⟨trace, rest⟩ := ih (call.counted memberSeq) (completes.finite finite)
      exact ⟨_, .cons completes rest⟩

def noKeys : Server := fun _ => ∅

/-- Any calls by any instances, one at a time and from empty stores: they run to their end
    on a Valkey server, and if every `ZADD` names a new member, each of them returns the same
    timestamps and leaves the same timestamps as on SQLite with some ranking SQL may use. -/
theorem backends_agree (globs : Globs matched) (plain : Plain keyPrefix)
    (range : ∀ call ∈ calls, call.InRange) :
    (∃ trace, ValkeyRuns matched keyPrefix noKeys (fun _ => 0) calls trace) ∧
      ∀ trace, ValkeyRuns matched keyPrefix noKeys (fun _ => 0) calls trace →
        FreshRun keyPrefix noKeys (fun _ => 0) calls trace →
        ∃ other, SqliteRuns [] calls other ∧
          List.Forall₂ (SameOutcome (keyPrefix ++ ":history:")) trace other := by
  have unused : (InUse noKeys).Finite := Set.finite_empty.subset fun key there => there rfl
  refine ⟨exists_valkeyRuns globs plain calls _ unused, ?_⟩
  intro trace runs fresh
  have nothing : Stores (keyPrefix ++ ":history:") noKeys [] := fun identity => rfl
  exact runs.agree globs plain range fresh nothing

/-- A matcher for patterns that end in their only wildcard. -/
def startMatches (pattern key : String) : Prop := pattern.toList.dropLast <+: key.toList

theorem globs_startMatches : Globs startMatches := by
  intro start _ key
  have front : (start ++ "*").toList.dropLast = start.toList := by
    rw [String.toList_append]
    exact List.dropLast_concat
  rw [startMatches, front]

theorem ValkeySync.Outcome.subset
    (outcome : Outcome server keyStart cutoff maxIdentities held after rows) (identity : String) :
    after (keyStart ++ identity) ⊆ server (keyStart ++ identity) := by
  rw [outcome.stored]
  split
  · exact Finset.empty_subset _
  · exact Finset.filter_subset _ _

def firstInstance : SyncCall := ⟨0, [("alice", 1000), ("alice", 1000)], 0, 10⟩

/-- Two units at one moment, then another instance with room for one identity. -/
def twoInstances : List SyncCall := [firstInstance, ⟨1, [("alice", 2000), ("bob", 2000)], 0, 1⟩]

theorem backends_agree_two_instances :
    ∃ trace other, ValkeyRuns startMatches "ai_protect" noKeys (fun _ => 0) twoInstances trace ∧
      SqliteRuns [] twoInstances other ∧
      List.Forall₂ (SameOutcome "ai_protect:history:") trace other := by
  obtain ⟨⟨trace, runs⟩, agree⟩ := backends_agree globs_startMatches
    (by decide +kernel : Plain "ai_protect")
    (by decide +kernel : ∀ call ∈ twoInstances, call.InRange)
  have fresh : FreshRun "ai_protect" noKeys (fun _ => 0) twoInstances trace := by
    rcases runs with _ | ⟨first, _ | ⟨second, _ | _⟩⟩
    obtain ⟨held, outcome⟩ := first.outcome globs_startMatches (by decide +kernel)
    have alice : ∀ entry ∈ addAll noKeys (SyncCall.zadds "ai_protect" (fun _ => 0) firstInstance)
        ("ai_protect" ++ ":history:" ++ "alice"), (ofLex entry).2 ≠ "2000-0" := by decide +kernel
    have bob : ∀ entry ∈ addAll noKeys (SyncCall.zadds "ai_protect" (fun _ => 0) firstInstance)
        ("ai_protect" ++ ":history:" ++ "bob"), (ofLex entry).2 ≠ "2000-1" := by decide +kernel
    refine ⟨by decide +kernel, ⟨?_, ?_, trivial⟩, trivial⟩
    · exact fun entry member => alice entry (outcome.subset "alice" member)
    · intro entry member
      rcases Keyspace.mem_zadd.mp member with ⟨same, -⟩ | ⟨there, -⟩
      · exact absurd same (by decide +kernel)
      · exact bob entry (outcome.subset "bob" there)
  obtain ⟨other, sqlite, same⟩ := agree trace runs fresh
  exact ⟨trace, other, runs, sqlite, same⟩

/-- A cap above the number of rows deletes nothing. -/
theorem blockingSync_of_few {ranking : List String} (fits : maxIdentities < 2 ^ 63)
    (few : (table ++ newEvents).length ≤ maxIdentities)
    (ranked : IsRanking ((table ++ newEvents).filter fun row => decide (cutoff ≤ row.2)) ranking) :
    blockingSync ranking table newEvents cutoff maxIdentities =
      (table ++ newEvents).filter fun row => decide (cutoff ≤ row.2) := by
  have short : ranking.length ≤ maxIdentities := by
    calc ranking.length
        ≤ (((table ++ newEvents).filter fun row => decide (cutoff ≤ row.2)).map Prod.fst).length :=
          (List.subperm_of_subset ranked.once fun identity => (ranked.complete identity).mp).length_le
      _ ≤ (table ++ newEvents).length := by
          rw [List.length_map]
          exact List.length_filter_le _ _
      _ ≤ maxIdentities := few
  have nobody : beyondCap ranking maxIdentities = [] := by
    rw [beyondCap, wrapI64_of_fits (by omega) (by omega), Int.toNat_natCast,
      List.drop_eq_nil_of_le short]
  simp only [blockingSync, nobody, List.not_mem_nil, not_false_eq_true, decide_true,
    List.filter_true]

/-- Two instances admit one unit each at the same millisecond. -/
def sameMoment : List SyncCall := [⟨0, [("alice", 1000)], 0, 10⟩, ⟨1, [("alice", 1000)], 0, 10⟩]

theorem sameMoment_sqlite {trace : List (Snapshot × List Row)}
    (runs : SqliteRuns [] sameMoment trace) :
    ∃ early rows, trace = [early, (rows, [("alice", 1000), ("alice", 1000)])] := by
  rcases runs with _ | ⟨rankedFirst, first, _ | ⟨rankedSecond, second, _ | _⟩⟩
  rw [syncNow_none, blockingSync_of_few (by decide) (by decide) rankedFirst, Prod.mk.injEq] at first
  obtain ⟨-, rfl⟩ := first
  rw [syncNow_none, blockingSync_of_few (by decide) (by decide) rankedSecond, Prod.mk.injEq] at second
  obtain ⟨-, rfl⟩ := second
  exact ⟨_, _, rfl⟩

theorem sameMoment_valkey
    (runs : ValkeyRuns startMatches "ai_protect" noKeys (fun _ => 0) sameMoment trace) :
    ∃ early rows server, trace = [early, (rows, server)] ∧
      (server ("ai_protect" ++ ":history:" ++ "alice")).card ≤ 1 := by
  rcases runs with _ | ⟨first, _ | ⟨second, _ | _⟩⟩
  obtain ⟨_, stored⟩ := first.outcome globs_startMatches (by decide +kernel)
  obtain ⟨_, restored⟩ := second.outcome globs_startMatches (by decide +kernel)
  have one : ∀ entry ∈ addAll noKeys (SyncCall.zadds "ai_protect" (fun _ => 0) ⟨0, [("alice", 1000)], 0, 10⟩)
      ("ai_protect" ++ ":history:" ++ "alice"), entry = toLex (1000, "1000-0") := by decide +kernel
  refine ⟨_, _, _, rfl, Finset.card_le_one_iff_subset_singleton.mpr ⟨toLex (1000, "1000-0"), ?_⟩⟩
  intro entry member
  rw [Finset.mem_singleton]
  have again : SyncCall.zadds "ai_protect" (SyncCall.counted (fun _ => 0) ⟨0, [("alice", 1000)], 0, 10⟩)
      ⟨1, [("alice", 1000)], 0, 10⟩ = [⟨"ai_protect:history:alice", 1000, "1000-0"⟩] := by decide +kernel
  have written := restored.subset "alice" member
  rw [again, addAll, List.foldl_cons, List.foldl_nil] at written
  rcases Keyspace.mem_zadd.mp written with ⟨-, same⟩ | ⟨there, -⟩
  · exact same
  · exact one entry (stored.subset "alice" there)

/-- Both units get the member `1000-0`: the Valkey server counts one and SQLite two. -/
theorem same_moment_counted_once :
    (∀ call ∈ sameMoment, call.InRange) ∧ Globs startMatches ∧ Plain "ai_protect" ∧
      ∃ trace, ValkeyRuns startMatches "ai_protect" noKeys (fun _ => 0) sameMoment trace ∧
        ¬ ∃ other, SqliteRuns [] sameMoment other ∧
          List.Forall₂ (SameOutcome ("ai_protect" ++ ":history:")) trace other := by
  refine ⟨by decide +kernel, globs_startMatches, by decide +kernel, ?_⟩
  have unused : (InUse noKeys).Finite := Set.finite_empty.subset fun key there => there rfl
  obtain ⟨trace, runs⟩ := exists_valkeyRuns globs_startMatches (by decide +kernel : Plain "ai_protect") sameMoment
    (fun _ => 0) unused
  refine ⟨trace, runs, ?_⟩
  rintro ⟨other, sqlite, same⟩
  obtain ⟨_, _, server, rfl, one⟩ := sameMoment_valkey runs
  obtain ⟨_, _, rfl⟩ := sameMoment_sqlite sqlite
  rcases same with _ | ⟨-, _ | ⟨⟨-, stored⟩, _ | _⟩⟩
  have two : (server ("ai_protect" ++ ":history:" ++ "alice")).card = 2 := by
    have count := congrArg Multiset.card (stored "alice")
    rwa [Multiset.card_map] at count
  omega

end AiProtect
