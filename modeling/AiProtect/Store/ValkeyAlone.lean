import AiProtect.Store.Valkey
import Mathlib.Data.Set.List
import Mathlib.Data.Set.Finite.Basic

/-! # A Valkey sync that has the server to itself

When no other sync sends commands in between, what a sync leaves and returns is a
function of the keyspace, up to the order in which `SCAN` lists the keys. This module
runs a `ValkeySync` to its end and says what that comes to: the events are added, each
key of the prefix is pruned and read, and the identities past the cap are deleted.
-/

namespace AiProtect

open SortedSets

namespace ValkeySync

variable {matched : String → String → Prop} {server after : Server} {keyStart : String}
  {cutoff : Int} {maxIdentities : Nat} {held rows : Snapshot}

/-- A key of the sync's prefix: it matches the pattern of `SCAN` and is not empty. -/
def Listed (matched : String → String → Prop) (server : Server) (keyStart key : String) : Prop :=
  matched (keyStart ++ "*") key ∧ server key ≠ ∅

/-- What the server promises of a reply to `SCAN`: only keys that match and exist, and by
    the end of the iteration all of them. A key may be listed more than once. -/
def ReplyOk (matched : String → String → Prop) (server : Server) (sync : ValkeySync)
    (reply : Nat × List String) : Prop :=
  match sync.phase with
  | .scanning _ keys =>
      (∀ key ∈ reply.2, Listed matched server sync.keyStart key) ∧
        (reply.1 = 0 → ∀ key, Listed matched server sync.keyStart key → key ∈ keys ++ reply.2)
  | _ => True

/-- The sync runs to its end with no command of another sync in between. -/
inductive Completes (matched : String → String → Prop) :
    Server → ValkeySync → Server → Snapshot → Prop where
  | done {server : Server} {sync : ValkeySync} {rows : Snapshot}
      (returned : sync.phase = .returned rows) : Completes matched server sync server rows
  | sent {server after : Server} {sync : ValkeySync} {rows : Snapshot} {command : Command}
      {reply : Nat × List String} (sends : sync.command = some command)
      (answered : ReplyOk matched server sync reply)
      (rest : Completes matched (command.run server) (sync.resume server reply) after rows) :
      Completes matched server sync after rows

theorem completes_returned :
    Completes matched server ⟨keyStart, cutoff, maxIdentities, .returned held⟩ after rows ↔
      after = server ∧ rows = held := by
  constructor
  · intro completes
    cases completes with
    | done returned =>
        cases returned
        exact ⟨rfl, rfl⟩
    | sent sends _ _ => cases sends
  · rintro ⟨rfl, rfl⟩
    exact .done rfl

/-- Outside the scan the sync goes on in only one way. -/
theorem completes_command_iff {sync : ValkeySync} {command : Command}
    (sends : sync.command = some command)
    (settled : ∀ cursor keys, sync.phase ≠ .scanning cursor keys) :
    Completes matched server sync after rows ↔
      Completes matched (command.run server) (sync.resume server (0, [])) after rows := by
  have onward : ∀ reply, sync.resume server reply = sync.resume server (0, []) := by
    intro reply
    cases phase : sync.phase with
    | scanning cursor keys => exact absurd phase (settled cursor keys)
    | _ => simp only [resume, phase]
  have anything : ReplyOk matched server sync (0, []) := by
    cases phase : sync.phase with
    | scanning cursor keys => exact absurd phase (settled cursor keys)
    | _ => simp only [ReplyOk, phase]
  constructor
  · intro completes
    cases completes with
    | done returned => simp only [ValkeySync.command, returned, reduceCtorEq] at sends
    | @sent _ _ _ _ other reply sent _ rest =>
        obtain rfl := Option.some.inj (sends.symm.trans sent)
        rwa [onward] at rest
  · exact .sent sends anything

def addAll (server : Server) (events : List ZAdd) : Server :=
  events.foldl (fun server event => server.zadd event.key event.score event.member) server

theorem completes_addPhase (events : List ZAdd) :
    Completes matched server ⟨keyStart, cutoff, maxIdentities, addPhase events⟩ after rows ↔
      Completes matched (addAll server events)
        ⟨keyStart, cutoff, maxIdentities, .scanning 0 []⟩ after rows := by
  induction events generalizing server with
  | nil => rfl
  | cons event events ih =>
      rw [addPhase, completes_command_iff rfl (by rintro _ _ ⟨⟩)]
      exact ih

/-- The keys a finished scan has collected, in some order. -/
theorem Completes.scanned {cursor : Nat} {keys : List String}
    (completes : Completes matched server
      ⟨keyStart, cutoff, maxIdentities, .scanning cursor keys⟩ after rows)
    (listed : ∀ key ∈ keys, Listed matched server keyStart key) :
    ∃ all : List String, (∀ key, key ∈ all ↔ Listed matched server keyStart key) ∧
      Completes matched server
        ⟨keyStart, cutoff, maxIdentities, keyPhase maxIdentities ∅ all⟩ after rows := by
  generalize start : (⟨keyStart, cutoff, maxIdentities, .scanning cursor keys⟩ : ValkeySync) = sync
    at completes
  induction completes generalizing cursor keys with
  | done returned =>
      subst start
      cases returned
  | @sent server after sync rows command reply sends answered rest ih =>
      subst start
      obtain rfl := Option.some.inj sends
      obtain ⟨fromServer, complete⟩ := answered
      have more : ∀ key ∈ keys ++ reply.2, Listed matched server keyStart key := by
        intro key member
        rcases List.mem_append.mp member with old | new
        · exact listed key old
        · exact fromServer key new
      by_cases last : reply.1 = 0
      · refine ⟨keys ++ reply.2, fun key => ⟨more key, complete last key⟩, ?_⟩
        simpa only [resume, Command.run, last, if_true] using rest
      · exact @ih reply.1 (keys ++ reply.2) more (by simp only [resume, last, if_false])

/-- A server that lists all keys at once. -/
theorem Completes.of_scan {all : List String}
    (listed : ∀ key, key ∈ all ↔ Listed matched server keyStart key)
    (rest : Completes matched server
      ⟨keyStart, cutoff, maxIdentities, keyPhase maxIdentities ∅ all⟩ after rows) :
    Completes matched server ⟨keyStart, cutoff, maxIdentities, .scanning 0 []⟩ after rows := by
  have answered :
      ReplyOk matched server ⟨keyStart, cutoff, maxIdentities, .scanning 0 []⟩ (0, all) :=
    ⟨fun key => (listed key).mp, fun _ key => (listed key).mpr⟩
  exact .sent rfl answered rest

theorem stripStart_append (start text : String) : stripStart start (start ++ text) = some text := by
  rw [stripStart, String.toList_append, if_pos (List.prefix_append _ _), List.drop_left,
    String.ofList_toList]

def scores (set : SortedSet Int String) : List Int :=
  (set.sort (· ≤ ·)).map fun entry => (ofLex entry).1

/-- One turn of the loop over the keys. -/
def visit (keyStart : String) (cutoff : Int) (state : Server × Snapshot) (identity : String) :
    Server × Snapshot :=
  let server := state.1.zremrangebyscore (keyStart ++ identity) cutoff
  let remaining := server (keyStart ++ identity)
  (server, if remaining = ∅ then state.2 else state.2.insert identity (scores remaining))

theorem completes_removing {identity : String} {keys : List String} :
    Completes matched server
        ⟨keyStart, cutoff, maxIdentities, .removing (keyStart ++ identity) keys held⟩ after rows ↔
      Completes matched (visit keyStart cutoff (server, held) identity).1
        ⟨keyStart, cutoff, maxIdentities,
          keyPhase maxIdentities (visit keyStart cutoff (server, held) identity).2 keys⟩
        after rows := by
  generalize pruned : server.zremrangebyscore (keyStart ++ identity) cutoff = left
  -- ZREMRANGEBYSCORE, ZRANGE and ZCARD are three commands; only the first changes anything.
  rw [completes_command_iff rfl (by rintro _ _ ⟨⟩)]
  simp only [resume, Command.run, pruned]
  rw [completes_command_iff rfl (by rintro _ _ ⟨⟩)]
  simp only [resume, Command.run]
  rw [completes_command_iff rfl (by rintro _ _ ⟨⟩)]
  simp only [resume, Command.run, Keyspace.zcard, Finset.card_eq_zero, visit, pruned]
  by_cases empty : left (keyStart ++ identity) = ∅
  · have absent : left.del (keyStart ++ identity) = left := by
      funext other
      by_cases same : other = keyStart ++ identity
      · rw [same, Keyspace.del, Keyspace.put_self, empty]
      · rw [Keyspace.del, Keyspace.put_of_ne _ same]
    simp only [if_pos empty]
    rw [completes_command_iff rfl (by rintro _ _ ⟨⟩)]
    simp only [resume, Command.run, absent]
  · simp only [if_neg empty, stripStart_append]
    rfl

/-- The cap on identities, after the last key. -/
def evict (keyStart : String) (state : Server × Snapshot) (identity : String) :
    Server × Snapshot :=
  (state.1.del (keyStart ++ identity), state.2.erase identity)

theorem completes_capPhase (identities : List String) :
    Completes matched server
        ⟨keyStart, cutoff, maxIdentities, capPhase held identities⟩ after rows ↔
      (after, rows) = identities.foldl (evict keyStart) (server, held) := by
  induction identities generalizing server held with
  | nil => rw [capPhase, completes_returned, List.foldl_nil, Prod.mk.injEq]
  | cons identity identities ih =>
      rw [capPhase, completes_command_iff rfl (by rintro _ _ ⟨⟩)]
      exact ih

theorem keyPhase_nil (maxIdentities : Nat) (rows : Snapshot) :
    keyPhase maxIdentities rows [] = capPhase rows (stalest maxIdentities rows) := by
  rw [keyPhase]
  split
  · rfl
  · rename_i within
    rw [stalest, Nat.sub_eq_zero_of_le (Nat.le_of_not_lt within), List.take_zero, List.map_nil,
      capPhase]

/-- The loop over the keys and the cap, as functions of the keyspace. -/
theorem completes_keyPhase (identities : List String) :
    Completes matched server
        ⟨keyStart, cutoff, maxIdentities,
          keyPhase maxIdentities held (identities.map (keyStart ++ ·))⟩ after rows ↔
      (after, rows) =
        (stalest maxIdentities (identities.foldl (visit keyStart cutoff) (server, held)).2).foldl
          (evict keyStart) (identities.foldl (visit keyStart cutoff) (server, held)) := by
  induction identities generalizing server held with
  | nil => rw [List.map_nil, keyPhase_nil, completes_capPhase, List.foldl_nil]
  | cons identity identities ih =>
      rw [List.map_cons, keyPhase, completes_removing, ih]
      rfl

def young (cutoff : Int) (set : SortedSet Int String) : SortedSet Int String :=
  set.filter fun entry => cutoff ≤ (ofLex entry).1

theorem young_young (cutoff : Int) (set : SortedSet Int String) :
    young cutoff (young cutoff set) = young cutoff set := by
  rw [young, young, Finset.filter_filter]
  simp only [and_self]

theorem visit_server (identity other : String) :
    (visit keyStart cutoff (server, held) identity).1 (keyStart ++ other) =
      if other = identity then young cutoff (server (keyStart ++ other))
      else server (keyStart ++ other) := by
  by_cases same : other = identity
  · rw [if_pos same, same]
    exact Keyspace.put_self _ _ _
  · rw [if_neg same]
    exact Keyspace.put_of_ne _ (fun equal => same ((String.append_right_inj keyStart).mp equal)) _

theorem visit_lookup (identity other : String) :
    (visit keyStart cutoff (server, held) identity).2.lookup other =
      if other = identity ∧ young cutoff (server (keyStart ++ other)) ≠ ∅ then
        some (scores (young cutoff (server (keyStart ++ other))))
      else held.lookup other := by
  have remaining : server.zremrangebyscore (keyStart ++ identity) cutoff (keyStart ++ identity) =
      young cutoff (server (keyStart ++ identity)) := Keyspace.put_self _ _ _
  simp only [visit, remaining]
  by_cases same : other = identity
  · rw [same]
    by_cases empty : young cutoff (server (keyStart ++ identity)) = ∅
    · simp only [empty, if_true, ne_eq, not_true_eq_false, and_false, if_false]
    · rw [if_neg empty, if_pos ⟨rfl, empty⟩, AList.lookup_insert]
  · rw [if_neg fun both : other = identity ∧ _ => same both.1]
    split
    · rfl
    · rw [AList.lookup_insert_ne same]

/-- The loop over the keys: every listed set is pruned, and read if something is left. -/
theorem foldl_visit (keyStart : String) (cutoff : Int) (server : Server) (held : Snapshot)
    (identities : List String) (other : String) :
    (identities.foldl (visit keyStart cutoff) (server, held)).1 (keyStart ++ other) =
        (if other ∈ identities then young cutoff (server (keyStart ++ other))
          else server (keyStart ++ other)) ∧
      (identities.foldl (visit keyStart cutoff) (server, held)).2.lookup other =
        if other ∈ identities ∧ young cutoff (server (keyStart ++ other)) ≠ ∅ then
          some (scores (young cutoff (server (keyStart ++ other))))
        else held.lookup other := by
  induction identities generalizing server held with
  | nil => simp only [List.foldl_nil, List.not_mem_nil, if_false, false_and, and_self]
  | cons identity identities ih =>
      obtain ⟨stored, read⟩ := ih (visit keyStart cutoff (server, held) identity).1
        (visit keyStart cutoff (server, held) identity).2
      rw [List.foldl_cons, stored, read, visit_server, visit_lookup]
      simp only [List.mem_cons]
      by_cases same : other = identity
      · simp only [same, true_or, true_and, if_true, young_young, ite_self]
        split
        · rename_i both
          rw [if_pos both.2]
        · rfl
      · simp only [same, false_or, false_and, if_false, and_self]

/-- The eviction of identities: their keys are gone, and they are not returned. -/
theorem foldl_evict (keyStart : String) (server : Server) (held : Snapshot)
    (identities : List String) (other : String) :
    (identities.foldl (evict keyStart) (server, held)).1 (keyStart ++ other) =
        (if other ∈ identities then ∅ else server (keyStart ++ other)) ∧
      (identities.foldl (evict keyStart) (server, held)).2.lookup other =
        if other ∈ identities then none else held.lookup other := by
  induction identities generalizing server held with
  | nil => simp only [List.foldl_nil, List.not_mem_nil, if_false, and_self]
  | cons identity identities ih =>
      obtain ⟨stored, read⟩ := ih (server.del (keyStart ++ identity)) (held.erase identity)
      rw [List.foldl_cons, evict, stored, read]
      simp only [List.mem_cons]
      by_cases same : other = identity
      · rw [same, Keyspace.del, Keyspace.put_self, AList.lookup_erase]
        simp only [true_or, if_true, ite_self, and_self]
      · have apart : keyStart ++ other ≠ keyStart ++ identity :=
          fun equal => same ((String.append_right_inj keyStart).mp equal)
        rw [Keyspace.del, Keyspace.put_of_ne _ apart, AList.lookup_erase_ne same]
        simp only [same, false_or, and_self]

/-- A text without the characters that are special in a pattern of `SCAN`. -/
def Plain (text : String) : Prop := ∀ char ∈ text.toList, char ∉ ['*', '?', '[', '\\']

instance (text : String) : Decidable (Plain text) := List.decidableBAll _ text.toList

theorem plain_keyStart_iff (keyPrefix : String) : Plain (keyPrefix ++ ":history:") ↔ Plain keyPrefix := by
  have fixed : Plain ":history:" := by decide +kernel
  simp only [Plain, String.toList_append, List.mem_append] at fixed ⊢
  constructor
  · intro plain char member
    exact plain char (.inl member)
  · rintro plain char (mine | given)
    · exact plain char mine
    · exact fixed char given

/-- What the documentation of `SCAN` says of a pattern that ends in its only wildcard. -/
def Globs (matched : String → String → Prop) : Prop :=
  ∀ start, Plain start → ∀ key : String, matched (start ++ "*") key ↔ start.toList <+: key.toList

/-- What a sync leaves and returns, where `held` is the map it has built before the cap. -/
structure Outcome (server : Server) (keyStart : String) (cutoff : Int) (maxIdentities : Nat)
    (held : Snapshot) (after : Server) (rows : Snapshot) : Prop where
  read : ∀ identity, held.lookup identity =
    if young cutoff (server (keyStart ++ identity)) = ∅ then none
    else some (scores (young cutoff (server (keyStart ++ identity))))
  stored : ∀ identity, after (keyStart ++ identity) =
    if identity ∈ stalest maxIdentities held then ∅
    else young cutoff (server (keyStart ++ identity))
  returned : ∀ identity, rows.lookup identity =
    if identity ∈ stalest maxIdentities held then none else held.lookup identity

theorem listed_iff (globs : Globs matched) (plain : Plain keyStart) {key : String} :
    Listed matched server keyStart key ↔
      ∃ identity, key = keyStart ++ identity ∧ server key ≠ ∅ := by
  rw [Listed, globs keyStart plain]
  constructor
  · rintro ⟨⟨rest, same⟩, there⟩
    refine ⟨String.ofList rest, String.toList_injective ?_, there⟩
    rw [String.toList_append, String.toList_ofList, same]
  · rintro ⟨identity, rfl, there⟩
    exact ⟨by rw [String.toList_append]; exact List.prefix_append _ _, there⟩

/-- The identities of a scan, in the order of their keys. -/
theorem exists_identities (globs : Globs matched) (plain : Plain keyStart) {all : List String}
    (listed : ∀ key, key ∈ all ↔ Listed matched server keyStart key) :
    ∃ identities : List String, all = identities.map (keyStart ++ ·) ∧
      ∀ identity, identity ∈ identities ↔ server (keyStart ++ identity) ≠ ∅ := by
  have each : all ∈ Set.range (List.map (keyStart ++ ·)) := by
    rw [Set.range_list_map]
    intro key member
    obtain ⟨identity, same, -⟩ := (listed_iff globs plain).mp ((listed key).mp member)
    exact ⟨identity, same.symm⟩
  have apart : Function.Injective (keyStart ++ ·) :=
    fun _ _ => (String.append_right_inj keyStart).mp
  obtain ⟨identities, same⟩ := each
  refine ⟨identities, same.symm, ?_⟩
  intro identity
  rw [← List.mem_map_of_injective apart, same, listed, listed_iff globs plain]
  exact ⟨fun ⟨_, _, there⟩ => there, fun there => ⟨identity, rfl, there⟩⟩

/-- The loops over all keys of the prefix give the outcome, in whatever order they are listed. -/
theorem outcome_of_identities {identities : List String} {visited : Server × Snapshot}
    (complete : ∀ identity, identity ∈ identities ↔ server (keyStart ++ identity) ≠ ∅)
    (loop : visited = identities.foldl (visit keyStart cutoff) (server, ∅))
    (ends : (after, rows) = (stalest maxIdentities visited.2).foldl (evict keyStart) visited) :
    Outcome server keyStart cutoff maxIdentities visited.2 after rows := by
  have pruned := foldl_visit keyStart cutoff server ∅ identities
  rw [← loop] at pruned
  have evicted := foldl_evict keyStart visited.1 visited.2 (stalest maxIdentities visited.2)
  rw [Prod.mk.eta, ← ends] at evicted
  simp only at evicted
  refine ⟨?_, ?_, fun identity => (evicted identity).2⟩
  · intro identity
    rw [(pruned identity).2, AList.lookup_empty]
    by_cases empty : young cutoff (server (keyStart ++ identity)) = ∅
    · simp only [empty, ne_eq, not_true_eq_false, and_false, if_false, if_true]
    · have there : server (keyStart ++ identity) ≠ ∅ := by
        intro nothing
        exact empty (by rw [nothing, young, Finset.filter_empty])
      rw [if_neg empty, if_pos ⟨(complete identity).mpr there, empty⟩]
  · intro identity
    rw [(evicted identity).1, (pruned identity).1]
    by_cases there : identity ∈ identities
    · rw [if_pos there]
    · have nothing := not_not.mp fun some => there ((complete identity).mpr some)
      rw [if_neg there, nothing, young, Finset.filter_empty]

/-- What a sync comes to that has the server to itself. -/
theorem Completes.outcome (globs : Globs matched) (plain : Plain keyStart) {events : List ZAdd}
    (completes : Completes matched server
      ⟨keyStart, cutoff, maxIdentities, addPhase events⟩ after rows) :
    ∃ held, Outcome (addAll server events) keyStart cutoff maxIdentities held after rows := by
  rw [completes_addPhase] at completes
  obtain ⟨all, listed, rest⟩ := completes.scanned fun _ member => absurd member List.not_mem_nil
  obtain ⟨identities, rfl, complete⟩ := exists_identities globs plain listed
  exact ⟨_, outcome_of_identities complete rfl ((completes_keyPhase identities).mp rest)⟩

/-- Only finitely many keys are in use. -/
def InUse (server : Server) : Set String := {key | server key ≠ ∅}

theorem finite_run (finite : (InUse server).Finite) (command : Command) :
    (InUse (command.run server)).Finite := by
  cases command with
  | zadd event =>
      refine (finite.insert event.key).subset ?_
      intro key there
      by_cases same : key = event.key
      · exact Set.mem_insert_iff.mpr (.inl same)
      · rw [InUse, Set.mem_ofPred_eq, Command.run, Keyspace.zadd,
          Keyspace.put_of_ne _ same] at there
        exact Set.mem_insert_iff.mpr (.inr there)
  | zremrangebyscore key bound =>
      refine finite.subset ?_
      intro other there nothing
      obtain ⟨entry, left⟩ := Finset.nonempty_iff_ne_empty.mpr there
      have before := (Keyspace.mem_zremrangebyscore.mp left).1
      rw [nothing] at before
      exact absurd before (Finset.notMem_empty entry)
  | del key =>
      refine finite.subset ?_
      intro other there nothing
      obtain ⟨entry, left⟩ := Finset.nonempty_iff_ne_empty.mpr there
      have before := (Keyspace.mem_del.mp left).1
      rw [nothing] at before
      exact absurd before (Finset.notMem_empty entry)
  | scan _ | zrange _ | zcard _ => exact finite

theorem Completes.finite {sync : ValkeySync}
    (completes : Completes matched server sync after rows) (finite : (InUse server).Finite) :
    (InUse after).Finite := by
  induction completes with
  | done _ => exact finite
  | sent _ _ _ ih => exact ih (finite_run finite _)

/-- Every sync comes to an end. -/
theorem exists_completes (globs : Globs matched) (plain : Plain keyStart)
    (finite : (InUse server).Finite) (maxIdentities : Nat) (events : List ZAdd) :
    ∃ after rows, Completes matched server
      ⟨keyStart, cutoff, maxIdentities, addPhase events⟩ after rows := by
  classical
  have used : (InUse (addAll server events)).Finite := by
    induction events generalizing server with
    | nil => exact finite
    | cons event events ih => exact ih (finite_run finite (.zadd event))
  have listed : ∀ key, key ∈ (used.toFinset.filter (matched (keyStart ++ "*"))).toList ↔
      Listed matched (addAll server events) keyStart key := by
    intro key
    rw [Finset.mem_toList, Finset.mem_filter, Set.Finite.mem_toFinset, Listed, and_comm]
    rfl
  obtain ⟨identities, same, -⟩ := exists_identities globs plain listed
  let visited := identities.foldl (visit keyStart cutoff) (addAll server events, ∅)
  let evicted := (stalest maxIdentities visited.2).foldl (evict keyStart) visited
  refine ⟨evicted.1, evicted.2, (completes_addPhase events).mpr (.of_scan listed ?_)⟩
  rw [same]
  exact (completes_keyPhase identities).mpr rfl

end ValkeySync

end AiProtect
