import AiProtect.Lib.Runs
import AiProtect.Lib.SortedSets
import AiProtect.Store.Anchor
import Mathlib.Data.String.Basic

/-! # The Valkey history store

Several instances sync against one server. A sync is a machine that sends one
command at a time; the server runs each command on its own, so the commands of
other syncs may come between any two. `Valkey` is the server, the syncs in
progress and a record of what was written.

The theorem at the end says when no event is erased before its time: exactly if no
`DEL` hits a key that holds a live event.
-/

namespace AiProtect

open SortedSets Runs

/-- The arguments of a `ZADD`. -/
structure ZAdd where
  key : String
  score : Int
  member : String
  deriving DecidableEq, Repr

abbrev Server := Keyspace String Int String

inductive Command where
  | zadd (event : ZAdd)
  | scan (cursor : Nat)
  | zremrangebyscore (key : String) (bound : Int)
  | zrange (key : String)
  | zcard (key : String)
  | del (key : String)
  deriving DecidableEq, Repr

/-- What a command does to the keyspace. -/
def Command.run (server : Server) : Command → Server
  | .zadd event => server.zadd event.key event.score event.member
  | .zremrangebyscore key bound => server.zremrangebyscore key bound
  | .del key => server.del key
  | .scan _ | .zrange _ | .zcard _ => server

/-- Where a sync stands: the command it sends next, and what it holds so far. -/
inductive ValkeyPhase where
  | adding (event : ZAdd) (todo : List ZAdd)
  | scanning (cursor : Nat) (keys : List String)
  | removing (key : String) (keys : List String) (rows : Snapshot)
  | ranging (key : String) (keys : List String) (rows : Snapshot)
  | counting (key : String) (remaining : List Int) (keys : List String) (rows : Snapshot)
  | deleting (key : String) (keys : List String) (rows : Snapshot)
  | capping (identity : String) (identities : List String) (rows : Snapshot)
  | returned (rows : Snapshot)
  | failed

structure ValkeySync where
  keyStart : String
  cutoff : Int
  maxIdentities : Nat
  phase : ValkeyPhase

namespace ValkeySync

/-- The text after `start`, if `text` begins with it. -/
def stripStart (start text : String) : Option String :=
  if start.toList <+: text.toList then some (String.ofList (text.toList.drop start.toList.length)) else none

def lastSeen (timestamps : List Int) : Int := timestamps.getLast?.getD (-2 ^ 63)

/-- The identities past the cap, the stalest first. -/
def stalest (maxIdentities : Nat) (rows : Snapshot) : List String :=
  (((rows.entries.map fun entry => (entry.1, lastSeen entry.2)).mergeSort fun first second =>
    decide (first.2 ≤ second.2)).take (rows.entries.length - maxIdentities)).map Prod.fst

def capPhase (rows : Snapshot) : List String → ValkeyPhase
  | [] => .returned rows
  | identity :: identities => .capping identity identities rows

/-- The next key of the loop, or the cap on identities after the last one. -/
def keyPhase (maxIdentities : Nat) (rows : Snapshot) : List String → ValkeyPhase
  | key :: keys => .removing key keys rows
  | [] =>
      if maxIdentities < rows.entries.length then capPhase rows (stalest maxIdentities rows)
      else .returned rows

def addPhase : List ZAdd → ValkeyPhase
  | [] => .scanning 0 []
  | event :: todo => .adding event todo

/-- The command the sync sends next. -/
def command (sync : ValkeySync) : Option Command :=
  match sync.phase with
  | .adding event _ => some (.zadd event)
  | .scanning cursor _ => some (.scan cursor)
  | .removing key _ _ => some (.zremrangebyscore key sync.cutoff)
  | .ranging key _ _ => some (.zrange key)
  | .counting key _ _ _ => some (.zcard key)
  | .deleting key _ _ => some (.del key)
  | .capping identity _ _ => some (.del (sync.keyStart ++ identity))
  | .returned _ | .failed => none

/-- How the sync goes on after the server has run its command. A reply that reads the
    keyspace is read off `server`; the reply of `SCAN` is whatever the server chose. -/
def resume (server : Server) (reply : Nat × List String) (sync : ValkeySync) : ValkeySync :=
  let phase := match sync.phase with
    | .adding _ todo => addPhase todo
    | .scanning _ keys =>
        if reply.1 = 0 then keyPhase sync.maxIdentities ∅ (keys ++ reply.2)
        else .scanning reply.1 (keys ++ reply.2)
    | .removing key keys rows => .ranging key keys rows
    | .ranging key keys rows => .counting key ((server.zrange key).map fun entry => (ofLex entry).1) keys rows
    | .counting key remaining keys rows =>
        if server.zcard key = 0 then .deleting key keys rows
        else
          match stripStart sync.keyStart key with
          | none => keyPhase sync.maxIdentities rows keys
          | some identity => keyPhase sync.maxIdentities (rows.insert identity remaining) keys
    | .deleting _ keys rows => keyPhase sync.maxIdentities rows keys
    | .capping identity identities rows => capPhase (rows.erase identity) identities
    | .returned rows => .returned rows
    | .failed => .failed
  { sync with phase }

/-- The events the sync has yet to write. -/
def todo (sync : ValkeySync) : List ZAdd :=
  match sync.phase with
  | .adding event todo => event :: todo
  | _ => []

theorem todo_addPhase (sync : ValkeySync) (events : List ZAdd) :
    ({ sync with phase := addPhase events } : ValkeySync).todo = events := by
  cases events <;> rfl

theorem todo_keyPhase (sync : ValkeySync) (maxIdentities : Nat) (rows : Snapshot) (keys : List String) :
    ({ sync with phase := keyPhase maxIdentities rows keys } : ValkeySync).todo = [] := by
  cases keys with
  | cons key keys => rfl
  | nil =>
      simp only [keyPhase]
      split
      · cases stalest maxIdentities rows <;> rfl
      · rfl

/-- Each command takes at most the first of the events to write. -/
theorem todo_resume (server : Server) (reply : Nat × List String) (sync : ValkeySync) :
    (sync.resume server reply).todo = sync.todo.tail := by
  cases phase : sync.phase with
  | adding event todo =>
      simp only [resume, phase, todo_addPhase]
      simp only [ValkeySync.todo, phase, List.tail_cons]
  | scanning cursor keys =>
      simp only [resume, phase]
      split
      · rw [todo_keyPhase]
        simp only [ValkeySync.todo, phase, List.tail_nil]
      · simp only [ValkeySync.todo, phase, List.tail_nil]
  | counting key remaining keys rows =>
      simp only [resume, phase]
      split
      · simp only [ValkeySync.todo, phase, List.tail_nil]
      · split <;> rw [todo_keyPhase] <;> simp only [ValkeySync.todo, phase, List.tail_nil]
  | deleting key keys rows =>
      simp only [resume, phase, todo_keyPhase]
      simp only [ValkeySync.todo, phase, List.tail_nil]
  | capping identity identities rows =>
      cases identities <;> simp only [resume, ValkeySync.todo, phase, capPhase, List.tail_nil]
  | removing _ _ _ | ranging _ _ _ | returned _ | failed =>
      simp only [resume, ValkeySync.todo, phase, List.tail_nil]

theorem cutoff_resume (server : Server) (reply : Nat × List String) (sync : ValkeySync) :
    (sync.resume server reply).cutoff = sync.cutoff := rfl

theorem todo_of_command {sync : ValkeySync} {event : ZAdd} (sends : sync.command = some (.zadd event)) :
    sync.todo = event :: sync.todo.tail := by
  cases phase : sync.phase <;> simp only [command, phase, Option.some.injEq, Command.zadd.injEq, reduceCtorEq] at sends
  simp only [todo, phase, sends, List.tail_cons]

theorem bound_of_command {sync : ValkeySync} {key : String} {bound : Int}
    (sends : sync.command = some (.zremrangebyscore key bound)) : bound = sync.cutoff := by
  cases phase : sync.phase <;>
    simp only [command, phase, Option.some.injEq, Command.zremrangebyscore.injEq, reduceCtorEq] at sends
  exact sends.2.symm

end ValkeySync

/-- The server with the syncs that were begun. `written` has every `ZADD` that was run,
    `cutoffs` the age limits of the syncs and `members` all member strings handed out. -/
structure Valkey where
  server : Server
  memberSeq : Nat → Nat
  syncs : List ValkeySync
  written : List ZAdd
  cutoffs : List Int
  members : Finset String

inductive ValkeyLabel where
  | start (store : Nat) (keyPrefix : String) (newEvents : List (String × Int)) (cutoff : Int) (maxIdentities : Nat)
  | run (sync : Nat) (reply : Nat × List String)
  | delFailed (sync : Nat)
  | abort (sync : Nat)

namespace Valkey

/-- The `ZADD`s of a sync whose store has handed out `seq` member numbers so far. -/
def zadds (keyStart : String) (seq : Nat) (newEvents : List (String × Int)) : List ZAdd :=
  newEvents.zipIdx.map fun event =>
    ⟨keyStart ++ event.1.1, event.1.2, s!"{event.1.2}-{(seq + event.2) % 2 ^ 64}"⟩

/-- The event a command writes, if it writes one. -/
def writes : Option Command → List ZAdd
  | some (.zadd event) => [event]
  | _ => []

/-- The key a command deletes, if it deletes one. -/
def deletes : Option Command → Option String
  | some (.del key) => some key
  | _ => none

def step (valkey : Valkey) : ValkeyLabel → Valkey
  | .start store keyPrefix newEvents cutoff maxIdentities =>
      let keyStart := keyPrefix ++ ":history:"
      let events := zadds keyStart (valkey.memberSeq store) newEvents
      { valkey with
        memberSeq := fun other =>
          if other = store then valkey.memberSeq store + newEvents.length else valkey.memberSeq other
        syncs := valkey.syncs ++ [⟨keyStart, cutoff, maxIdentities, ValkeySync.addPhase events⟩]
        cutoffs := valkey.cutoffs ++ [cutoff]
        members := valkey.members ∪ (events.map ZAdd.member).toFinset }
  | .run i reply =>
      match valkey.syncs[i]? with
      | none => valkey
      | some sync => { valkey with
          server := (sync.command.map (Command.run valkey.server)).getD valkey.server
          syncs := valkey.syncs.set i (sync.resume valkey.server reply)
          written := valkey.written ++ writes sync.command }
  | .delFailed i =>
      match valkey.syncs[i]? with
      | some sync =>
          match sync.command with
          | some (.del _) => { valkey with syncs := valkey.syncs.set i (sync.resume valkey.server (0, [])) }
          | _ => valkey
      | none => valkey
  | .abort i =>
      match valkey.syncs[i]? with
      | some sync => { valkey with syncs := valkey.syncs.set i { sync with phase := .failed } }
      | none => valkey

/-- A written event is in its set, or a sync was begun whose age limit is above its score. -/
def Kept (valkey : Valkey) : Prop :=
  ∀ event ∈ valkey.written, toLex (event.score, event.member) ∈ valkey.server event.key ∨
    ∃ cutoff ∈ valkey.cutoffs, event.score < cutoff

/-- The member strings of a new sync are its own. -/
def FreshMembers (valkey : Valkey) : ValkeyLabel → Prop
  | .start store keyPrefix newEvents _ _ =>
      ((zadds (keyPrefix ++ ":history:") (valkey.memberSeq store) newEvents).map ZAdd.member).Nodup ∧
        ∀ event ∈ zadds (keyPrefix ++ ":history:") (valkey.memberSeq store) newEvents,
          event.member ∉ valkey.members
  | _ => True

/-- A `DEL` hits a key only if each event there is below the age limit of some sync. -/
def DelSafe (valkey : Valkey) : ValkeyLabel → Prop
  | .run i _ => ∀ sync ∈ valkey.syncs[i]?, ∀ key ∈ deletes sync.command,
      ∀ event ∈ valkey.written, event.key = key →
        toLex (event.score, event.member) ∈ valkey.server event.key →
        ∃ cutoff ∈ valkey.cutoffs, event.score < cutoff
  | _ => True

/-- The events still to be written have members of their own. -/
structure Bookkept (valkey : Valkey) : Prop where
  cutoffs : ∀ sync ∈ valkey.syncs, sync.cutoff ∈ valkey.cutoffs
  writtenIssued : ∀ event ∈ valkey.written, event.member ∈ valkey.members
  issued : ∀ sync ∈ valkey.syncs, ∀ event ∈ sync.todo, event.member ∈ valkey.members
  once : ∀ sync ∈ valkey.syncs, (sync.todo.map ZAdd.member).Nodup
  unwritten : ∀ sync ∈ valkey.syncs, ∀ event ∈ sync.todo, ∀ other ∈ valkey.written, event.member ≠ other.member
  apart : ∀ (i j : Nat) (first second : ValkeySync), i ≠ j → valkey.syncs[i]? = some first → valkey.syncs[j]? = some second →
    ∀ event ∈ first.todo, ∀ other ∈ second.todo, event.member ≠ other.member

namespace Bookkept

variable {valkey : Valkey}

/-- A sync may be replaced by one with the same age limit and no more left to write. -/
theorem replace (books : valkey.Bookkept) {i : Nat} {sync next : ValkeySync} (found : valkey.syncs[i]? = some sync)
    (cutoff : next.cutoff = sync.cutoff) (fewer : next.todo.Sublist sync.todo) (server : Server) :
    ({ valkey with server, syncs := valkey.syncs.set i next } : Valkey).Bookkept := by
  have member := List.mem_of_getElem? found
  have earlier : ∀ entry ∈ valkey.syncs.set i next, ∃ old ∈ valkey.syncs,
      entry.cutoff = old.cutoff ∧ entry.todo.Sublist old.todo := by
    intro entry inside
    rcases List.mem_or_eq_of_mem_set inside with old | rfl
    · exact ⟨entry, old, rfl, List.Sublist.refl _⟩
    · exact ⟨sync, member, cutoff, fewer⟩
  have at_ : ∀ (j : Nat) (entry : ValkeySync), (valkey.syncs.set i next)[j]? = some entry → ∃ old, valkey.syncs[j]? = some old ∧
      entry.todo.Sublist old.todo := by
    intro j entry inside
    rw [List.getElem?_set] at inside
    split at inside
    · rename_i same
      subst same
      split at inside
      · obtain rfl := Option.some.inj inside
        exact ⟨sync, found, fewer⟩
      · cases inside
    · exact ⟨entry, inside, List.Sublist.refl _⟩
  refine ⟨?_, books.writtenIssued, ?_, ?_, ?_, ?_⟩
  · intro entry inside
    obtain ⟨old, there, same, -⟩ := earlier entry inside
    rw [same]
    exact books.cutoffs old there
  · intro entry inside event mine
    obtain ⟨old, there, -, sub⟩ := earlier entry inside
    exact books.issued old there event (sub.subset mine)
  · intro entry inside
    obtain ⟨old, there, -, sub⟩ := earlier entry inside
    exact (books.once old there).sublist (sub.map _)
  · intro entry inside event mine
    obtain ⟨old, there, -, sub⟩ := earlier entry inside
    exact books.unwritten old there event (sub.subset mine)
  · intro j k first second ne atJ atK event mine other theirs
    obtain ⟨oldFirst, thereFirst, subFirst⟩ := at_ j first atJ
    obtain ⟨oldSecond, thereSecond, subSecond⟩ := at_ k second atK
    exact books.apart j k oldFirst oldSecond ne thereFirst thereSecond event (subFirst.subset mine) other
      (subSecond.subset theirs)

/-- Writing the first of a sync's events. -/
theorem write (books : valkey.Bookkept) {i : Nat} {sync next : ValkeySync} (found : valkey.syncs[i]? = some sync)
    (cutoff : next.cutoff = sync.cutoff) {event : ZAdd} (todo : sync.todo = event :: next.todo) (server : Server) :
    ({ valkey with server, syncs := valkey.syncs.set i next, written := valkey.written ++ [event] } :
      Valkey).Bookkept := by
  have fewer : next.todo.Sublist sync.todo := by
    rw [todo]
    exact List.sublist_cons_self _ _
  have member := List.mem_of_getElem? found
  have mine : event ∈ sync.todo := by
    rw [todo]
    exact List.mem_cons_self
  have rest := books.replace found cutoff fewer server
  refine ⟨rest.cutoffs, ?_, rest.issued, rest.once, ?_, rest.apart⟩
  · intro other inside
    rcases List.mem_append.mp inside with old | new
    · exact books.writtenIssued other old
    · rw [List.mem_singleton.mp new]
      exact books.issued sync member event mine
  · intro entry inside other theirs old there
    rcases List.mem_append.mp there with before | new
    · exact rest.unwritten entry inside other theirs old before
    · rw [List.mem_singleton.mp new]
      obtain ⟨j, at_j⟩ := List.getElem?_of_mem inside
      by_cases same : i = j
      · subst same
        obtain ⟨bound, -⟩ := List.getElem?_eq_some_iff.mp found
        rw [List.getElem?_set_self bound] at at_j
        obtain rfl := Option.some.inj at_j
        have once := books.once sync member
        rw [todo, List.map_cons, List.nodup_cons] at once
        exact fun equal => once.1 (equal ▸ List.mem_map_of_mem theirs)
      · rw [List.getElem?_set_ne same] at at_j
        exact fun equal => books.apart i j sync entry same found at_j event mine other theirs equal.symm

theorem start (books : valkey.Bookkept) {events : List ZAdd} (distinct : (events.map ZAdd.member).Nodup)
    (fresh : ∀ event ∈ events, event.member ∉ valkey.members) {sync : ValkeySync} (todo : sync.todo = events)
    (memberSeq : Nat → Nat) :
    ({ valkey with
        memberSeq, syncs := valkey.syncs ++ [sync], cutoffs := valkey.cutoffs ++ [sync.cutoff]
        members := valkey.members ∪ (events.map ZAdd.member).toFinset } : Valkey).Bookkept := by
  have new : ∀ entry, entry ∈ valkey.syncs ++ [sync] → entry ∈ valkey.syncs ∨ entry = sync := by
    intro entry inside
    rcases List.mem_append.mp inside with old | last
    · exact .inl old
    · exact .inr (List.mem_singleton.mp last)
  refine ⟨?_, ?_, ?_, ?_, ?_, ?_⟩
  · intro entry inside
    rcases new entry inside with old | rfl
    · exact List.mem_append_left _ (books.cutoffs entry old)
    · exact List.mem_append_right _ List.mem_cons_self
  · exact fun event inside => Finset.mem_union_left _ (books.writtenIssued event inside)
  · intro entry inside event mine
    rcases new entry inside with old | rfl
    · exact Finset.mem_union_left _ (books.issued entry old event mine)
    · rw [todo] at mine
      exact Finset.mem_union_right _ (List.mem_toFinset.mpr (List.mem_map_of_mem mine))
  · intro entry inside
    rcases new entry inside with old | rfl
    · exact books.once entry old
    · rw [todo]
      exact distinct
  · intro entry inside event mine other before equal
    rcases new entry inside with old | rfl
    · exact books.unwritten entry old event mine other before equal
    · rw [todo] at mine
      exact fresh event mine (equal ▸ books.writtenIssued other before)
  · intro i j first second ne atI atJ event mine other theirs equal
    have place : ∀ (k : Nat) (entry : ValkeySync), (valkey.syncs ++ [sync])[k]? = some entry →
        valkey.syncs[k]? = some entry ∨ (k = valkey.syncs.length ∧ entry = sync) := by
      intro k entry at_k
      rw [List.getElem?_append] at at_k
      split at at_k
      · exact .inl at_k
      · rename_i beyond
        obtain ⟨index, value⟩ := List.getElem?_eq_some_iff.mp at_k
        simp only [List.length_singleton] at index
        exact .inr ⟨by omega, by simpa using value.symm⟩
    rcases place i first atI with oldI | ⟨lastI, rfl⟩
    · rcases place j second atJ with oldJ | ⟨-, rfl⟩
      · exact books.apart i j first second ne oldI oldJ event mine other theirs equal
      · rw [todo] at theirs
        exact fresh other theirs (equal ▸ books.issued first (List.mem_of_getElem? oldI) event mine)
    · rcases place j second atJ with oldJ | ⟨lastJ, -⟩
      · rw [todo] at mine
        exact fresh event mine (equal ▸ books.issued second (List.mem_of_getElem? oldJ) other theirs)
      · omega

theorem step (books : valkey.Bookkept) {label : ValkeyLabel} (fresh : valkey.FreshMembers label) :
    (valkey.step label).Bookkept := by
  cases label with
  | start store keyPrefix newEvents cutoff maxIdentities =>
      exact books.start fresh.1 fresh.2 (ValkeySync.todo_addPhase ⟨_, cutoff, maxIdentities, .failed⟩ _) _
  | run i reply =>
      cases found : valkey.syncs[i]? with
      | none => simpa only [Valkey.step, found] using books
      | some sync =>
          have fewer : (sync.resume valkey.server reply).todo.Sublist sync.todo := by
            rw [ValkeySync.todo_resume]
            exact List.tail_sublist _
          simp only [Valkey.step, found]
          cases sends : sync.command with
          | none =>
              simp only [writes, List.append_nil]
              exact books.replace found (ValkeySync.cutoff_resume _ _ _) fewer _
          | some command =>
              cases command with
              | zadd event =>
                  refine books.write found (ValkeySync.cutoff_resume _ _ _) ?_ _
                  rw [ValkeySync.todo_resume]
                  exact ValkeySync.todo_of_command sends
              | scan _ | zremrangebyscore _ _ | zrange _ | zcard _ | del _ =>
                  simp only [writes, List.append_nil]
                  exact books.replace found (ValkeySync.cutoff_resume _ _ _) fewer _
  | delFailed i =>
      cases found : valkey.syncs[i]? with
      | none => simpa only [Valkey.step, found] using books
      | some sync =>
          simp only [Valkey.step, found]
          split
          · refine books.replace found (ValkeySync.cutoff_resume _ _ _) ?_ _
            rw [ValkeySync.todo_resume]
            exact List.tail_sublist _
          · exact books
  | abort i =>
      cases found : valkey.syncs[i]? with
      | none => simpa only [Valkey.step, found] using books
      | some sync =>
          have nothing : ({ sync with phase := .failed } : ValkeySync).todo.Sublist sync.todo := List.nil_sublist _
          have limit : ({ sync with phase := .failed } : ValkeySync).cutoff = sync.cutoff := rfl
          simp only [Valkey.step, found]
          exact books.replace found limit nothing _

end Bookkept

/-- What one command does to the events that were written. -/
theorem kept_run_iff {valkey : Valkey} (kept : valkey.Kept) (books : valkey.Bookkept) {i : Nat} {sync : ValkeySync}
    (found : valkey.syncs[i]? = some sync) (reply : Nat × List String) :
    (valkey.step (.run i reply)).Kept ↔ valkey.DelSafe (.run i reply) := by
  have member := List.mem_of_getElem? found
  simp only [DelSafe, found, Option.mem_def, Option.some.injEq, forall_eq']
  simp only [step, found]
  cases sends : sync.command with
  | none =>
      simp only [writes, List.append_nil]
      exact iff_of_true kept (fun key same => by cases same)
  | some command =>
      cases command with
      | scan _ | zrange _ | zcard _ =>
          simp only [writes, List.append_nil]
          exact iff_of_true kept (fun key same => by cases same)
      | zadd event =>
          refine iff_of_true ?_ (fun key same => by cases same)
          have todo := ValkeySync.todo_of_command sends
          have mine : event ∈ sync.todo := by
            rw [todo]
            exact List.mem_cons_self
          intro other inside
          simp only [Option.map_some, Option.getD_some, Command.run]
          rcases List.mem_append.mp inside with old | new
          · refine (kept other old).imp_left fun there => Keyspace.mem_zadd.mpr (.inr ⟨there, fun _ equal => ?_⟩)
            exact books.unwritten sync member event mine other old equal.symm
          · rw [writes, List.mem_singleton] at new
            rw [new]
            exact .inl (Keyspace.mem_zadd.mpr (.inl ⟨rfl, rfl⟩))
      | zremrangebyscore key bound =>
          refine iff_of_true ?_ (fun key same => by cases same)
          rw [ValkeySync.bound_of_command sends]
          intro other inside
          simp only [writes, List.append_nil] at inside
          simp only [Option.map_some, Option.getD_some, Command.run]
          rcases kept other inside with there | expired
          · by_cases live : sync.cutoff ≤ other.score
            · exact .inl (Keyspace.mem_zremrangebyscore.mpr ⟨there, fun _ => live⟩)
            · exact .inr ⟨sync.cutoff, books.cutoffs sync member, lt_of_not_ge live⟩
          · exact .inr expired
      | del key =>
          simp only [writes, List.append_nil, Option.map_some, Option.getD_some, Command.run, deletes,
            Option.some.injEq, forall_eq']
          constructor
          · intro after event inside same there
            rcases after event inside with still | expired
            · exact absurd same (Keyspace.mem_del.mp still).2
            · exact expired
          · intro safe event inside
            rcases kept event inside with there | expired
            · by_cases same : event.key = key
              · exact .inr (safe event inside same there)
              · exact .inl (Keyspace.mem_del.mpr ⟨there, same⟩)
            · exact .inr expired

theorem kept_step_iff {valkey : Valkey} (kept : valkey.Kept) (books : valkey.Bookkept) (label : ValkeyLabel) :
    (valkey.step label).Kept ↔ valkey.DelSafe label := by
  cases label with
  | start store keyPrefix newEvents cutoff maxIdentities =>
      refine iff_of_true (fun event inside => (kept event inside).imp_right ?_) trivial
      rintro ⟨limit, begun, expired⟩
      exact ⟨limit, List.mem_append_left _ begun, expired⟩
  | run i reply =>
      cases found : valkey.syncs[i]? with
      | none =>
          have same : valkey.step (.run i reply) = valkey := by simp only [step, found]
          rw [same]
          exact iff_of_true kept (fun sync member => by rw [found] at member; cases member)
      | some sync => exact kept_run_iff kept books found reply
  | delFailed i =>
      refine iff_of_true ?_ trivial
      simp only [step]
      split
      · split <;> exact kept
      · exact kept
  | abort i =>
      refine iff_of_true ?_ trivial
      simp only [step]
      split <;> exact kept

/-- A server before any of the syncs, with whatever it holds. -/
def initial (server : Server) (memberSeq : Nat → Nat) : Valkey := ⟨server, memberSeq, [], [], [], ∅⟩

instance (valkey : Valkey) : Decidable valkey.Kept :=
  inferInstanceAs (Decidable (∀ event ∈ valkey.written, _))

instance (valkey : Valkey) (label : ValkeyLabel) : Decidable (valkey.DelSafe label) :=
  match label with
  | .run i _ => inferInstanceAs (Decidable (∀ sync ∈ valkey.syncs[i]?, _))
  | .start _ _ _ _ _ | .delFailed _ | .abort _ => inferInstanceAs (Decidable True)

instance (valkey : Valkey) (label : ValkeyLabel) : Decidable (valkey.FreshMembers label) :=
  match label with
  | .start _ _ _ _ _ => inferInstanceAs (Decidable (_ ∧ _))
  | .run _ _ | .delFailed _ | .abort _ => inferInstanceAs (Decidable True)

def emptyServer : Valkey := initial (fun _ => ∅) (fun _ => 0)

/-- An event is written and expires; a second sync empties its key and deletes it. -/
def expiringRun : List ValkeyLabel :=
  [.start 0 "limits" [("a", 100)] 50 10, .run 0 (0, []), .start 1 "limits" [] 200 10,
    .run 1 (0, ["limits:history:a"]), .run 1 (0, []), .run 1 (0, []), .run 1 (0, []), .run 1 (0, [])]

/-- Between the count and the `DEL` of the second sync, another event of the key is written. -/
def racingRun : List ValkeyLabel :=
  [.start 0 "limits" [("a", 100)] 50 10, .run 0 (0, []), .start 1 "limits" [] 200 10,
    .run 1 (0, ["limits:history:a"]), .run 1 (0, []), .run 1 (0, []), .run 1 (0, []),
    .start 0 "limits" [("a", 300)] 250 10, .run 2 (0, []), .run 1 (0, [])]

end Valkey

end AiProtect
