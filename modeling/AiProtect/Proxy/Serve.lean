import AiProtect.Lib.Runs

/-! # The accept loop

`serve`: the semaphore bounds the connections that run, the `JoinSet` collects their
tasks, and the shutdown watch ends the loop. A label of `poll` says which branch of the
`select!` is polled first; what follows it in an iteration does not wait for anything, so
one poll goes on to the next iteration or out of the loop. The ghosts count the
connections ever served and ever completed, and the ones that ran when the loop ended.

The loop never joins a task, so the set holds every connection ever served; the first
theorem says when that shows. The second is about the race between a connection and the
request to shut down.
-/

namespace AiProtect

open Runs

inductive Branch where
  | shutdown
  | accept
  deriving DecidableEq, Repr

/-- What `accept` will return next: a connection, or an error. -/
inductive Incoming where
  | connection
  | failure
  deriving DecidableEq, Repr

/-- An entry of the `JoinSet`. -/
structure Task where
  number : Nat
  running : Bool
  deriving DecidableEq, Repr

/-- Where `serve` stands: in an iteration of the loop, which began with the watch carrying
    this value, in the grace period, or at its end. -/
inductive ServePhase where
  | selecting (afterRequest : Bool)
  | draining
  | returned
  deriving DecidableEq, Repr

def ServePhase.inLoop : ServePhase → Bool
  | .selecting _ => true
  | _ => false

structure Serve where
  maxConnections : Nat
  permits : Nat
  requested : Bool
  abandoned : Bool
  backlog : List Incoming
  connections : List Task
  phase : ServePhase
  inFlight : Option Nat
  served : Nat
  completed : Nat
  stillRunning : Nat

/-- The steps of `serve` and of what is around it. `abandon` drops the senders of the
    watch, `complete` ends a connection task, `join` hands a finished one out. -/
inductive ServeLabel where
  | arrive (incoming : Incoming)
  | request
  | abandon
  | poll (first : Branch)
  | complete (number : Nat)
  | join (number : Nat)
  | timeout
  deriving DecidableEq, Repr

namespace Serve

def start (maxConnections : Nat) (requested : Bool) : Serve where
  maxConnections := maxConnections
  permits := maxConnections
  requested := requested
  abandoned := false
  backlog := []
  connections := []
  phase := .selecting requested
  inFlight := none
  served := 0
  completed := 0
  stillRunning := 0

/-- `wait_for_shutdown` is ready. -/
def shutdownReady (server : Serve) : Bool := server.requested || server.abandoned

/-- The branch a poll of the `select!` completes, if one is ready. -/
def chosen (server : Serve) (first : Branch) : Option Branch :=
  match first, server.shutdownReady, server.backlog with
  | .shutdown, true, _ => some .shutdown
  | .accept, _, _ :: _ => some .accept
  | .shutdown, false, _ :: _ => some .accept
  | .accept, true, [] => some .shutdown
  | _, false, [] => none

def running (tasks : List Task) : Nat := tasks.countP Task.running

/-- The loop is left, and `in_flight` is taken. -/
def leave (server : Serve) : Serve :=
  { server with
    phase := if server.connections = [] then .returned else .draining
    inFlight := some server.connections.length
    stillRunning := running server.connections }

/-- Take the next connection off the backlog: an error ends `serve`, which drops the set, and
    a connection gets a task if a permit is free. -/
def take (server : Serve) : Serve :=
  match server.backlog with
  | [] => server
  | .failure :: rest => { server with backlog := rest, connections := [], phase := .returned }
  | .connection :: rest =>
      if server.permits = 0 then { server with backlog := rest, phase := .selecting server.requested }
      else { server with
        backlog := rest
        permits := server.permits - 1
        connections := server.connections ++ [⟨server.served, true⟩]
        phase := .selecting server.requested
        served := server.served + 1 }

def poll (server : Serve) (first : Branch) : Serve :=
  match server.phase with
  | .selecting _ =>
      match server.chosen first with
      | none => server
      | some .shutdown => server.leave
      | some .accept => server.take
  | _ => server

/-- A task ends: its permit is free again, and its entry stays in the set. -/
def complete (server : Serve) (number : Nat) : Serve :=
  if ⟨number, true⟩ ∈ server.connections then
    { server with
      permits := server.permits + 1
      connections := server.connections.replace ⟨number, true⟩ ⟨number, false⟩
      completed := server.completed + 1 }
  else server

def join (server : Serve) (number : Nat) : Serve :=
  if server.phase = .draining ∧ ⟨number, false⟩ ∈ server.connections then
    let connections := server.connections.erase ⟨number, false⟩
    { server with connections, phase := if connections = [] then .returned else .draining }
  else server

/-- The grace period is over, and the tasks that are left are aborted. -/
def timeout (server : Serve) : Serve :=
  if server.phase = .draining then { server with connections := [], phase := .returned } else server

def step (server : Serve) : ServeLabel → Serve
  | .arrive incoming => { server with backlog := server.backlog ++ [incoming] }
  | .request => { server with requested := true }
  | .abandon => { server with abandoned := true }
  | .poll first => server.poll first
  | .complete number => server.complete number
  | .join number => server.join number
  | .timeout => server.timeout

/-- The result of a poll, by what it came to. -/
inductive Polled (server : Serve) (first : Branch) : Prop where
  | idle (result : server.poll first = server)
      (quiet : ∀ late, server.phase = .selecting late → server.chosen first = none)
  | left {late : Bool} (phase : server.phase = .selecting late)
      (picked : server.chosen first = some .shutdown)
      (result : server.poll first = server.leave)
  | failed {late : Bool} {rest : List Incoming} (phase : server.phase = .selecting late)
      (picked : server.chosen first = some .accept) (next : server.backlog = .failure :: rest)
      (result : server.poll first =
        { server with backlog := rest, connections := [], phase := .returned })
  | rejected {late : Bool} {rest : List Incoming} (phase : server.phase = .selecting late)
      (picked : server.chosen first = some .accept) (next : server.backlog = .connection :: rest)
      (full : server.permits = 0)
      (result : server.poll first = { server with backlog := rest, phase := .selecting server.requested })
  | spawned {late : Bool} {rest : List Incoming} (phase : server.phase = .selecting late)
      (picked : server.chosen first = some .accept) (next : server.backlog = .connection :: rest)
      (free : server.permits ≠ 0)
      (result : server.poll first = { server with
        backlog := rest
        permits := server.permits - 1
        connections := server.connections ++ [⟨server.served, true⟩]
        phase := .selecting server.requested
        served := server.served + 1 })

theorem backlog_of_accept {server : Serve} {first : Branch}
    (picked : server.chosen first = some .accept) :
    server.backlog ≠ [] := by
  intro nothing
  simp only [chosen, nothing] at picked
  revert picked
  cases first <;> cases server.shutdownReady <;> intro picked <;> cases picked

theorem polled (server : Serve) (first : Branch) : Polled server first := by
  cases phase : server.phase with
  | draining | returned =>
      refine .idle (by simp only [poll, phase]) fun late here => ?_
      rw [phase] at here
      cases here
  | selecting late =>
      cases picked : server.chosen first with
      | none => exact .idle (by simp only [poll, phase, picked]) fun _ _ => picked
      | some branch =>
          cases branch with
          | shutdown => exact .left phase picked (by simp only [poll, phase, picked])
          | accept =>
              have taken : server.poll first = server.take := by simp only [poll, phase, picked]
              cases next : server.backlog with
              | nil => exact absurd next (backlog_of_accept picked)
              | cons incoming rest =>
                  cases incoming with
                  | failure => exact .failed phase picked next (by rw [taken, take, next])
                  | connection =>
                      by_cases full : server.permits = 0
                      · exact .rejected phase picked next full
                          (by simp only [taken, take, next, full, if_true])
                      · exact .spawned phase picked next full
                          (by simp only [taken, take, next, full, if_false])

/-- Where a loop ends that waits for no task, or for some. -/
theorem ended_ne_selecting (tasks : List Task) (late : Bool) :
    (if tasks = [] then ServePhase.returned else .draining) ≠ .selecting late := by
  split <;> exact ServePhase.noConfusion

section Tasks

variable {tasks : List Task} {number : Nat}

theorem running_append (tasks : List Task) (number : Nat) :
    running (tasks ++ [⟨number, true⟩]) = running tasks + 1 := by
  simp only [running, List.countP_append, List.countP_singleton, if_true]

theorem running_replace (member : ⟨number, true⟩ ∈ tasks) :
    running (tasks.replace ⟨number, true⟩ ⟨number, false⟩) + 1 = running tasks := by
  have positive : 0 < running tasks := List.countP_pos_iff.mpr ⟨_, member, rfl⟩
  have replaced := List.countP_replace (l := tasks) (a := ⟨number, true⟩) (b := ⟨number, false⟩) (p := Task.running)
  simp only [List.contains_iff_mem, member, if_true, Bool.false_eq_true, if_false] at replaced
  simp only [running] at positive ⊢
  omega

theorem numbers_replace (tasks : List Task) (number : Nat) :
    (tasks.replace ⟨number, true⟩ ⟨number, false⟩).map Task.number = tasks.map Task.number := by
  induction tasks with
  | nil => rfl
  | cons task tasks ih =>
      rw [List.replace_cons]
      split
      · rename_i same
        rw [← beq_iff_eq.mp same]
        rfl
      · rw [List.map_cons, List.map_cons, ih]

end Tasks

/-- Tasks are numbered in the order they are spawned in. In the loop the set has an entry
    for each of them, of which the completed ones do not run. -/
structure Counted (server : Serve) : Prop where
  numbered : ∀ number ∈ server.connections.map Task.number, number < server.served
  late : server.phase = .selecting true → server.requested = true
  whole : ∀ late, server.phase = .selecting late → server.connections.length = server.served ∧
    running server.connections + server.completed = server.served

theorem counted_start (maxConnections : Nat) (requested : Bool) :
    (start maxConnections requested).Counted := by
  refine ⟨fun _ member => (by cases member), ?_, fun _ _ => ⟨rfl, rfl⟩⟩
  intro phase
  exact ServePhase.selecting.inj phase

/-- Out of the loop, only the numbers are left to check. -/
theorem Counted.of_left {before after : Serve} (counted : before.Counted)
    (served : after.served = before.served)
    (fewer : after.connections.map Task.number ⊆ before.connections.map Task.number)
    (left : ∀ late, after.phase ≠ .selecting late) : after.Counted := by
  refine ⟨?_, fun phase => absurd phase (left true), fun late phase => absurd phase (left late)⟩
  intro number member
  rw [served]
  exact counted.numbered number (fewer member)

theorem Counted.poll {server : Serve} (counted : server.Counted) (first : Branch) :
    (server.poll first).Counted := by
  cases server.polled first with
  | idle result _ =>
      rw [result]
      exact counted
  | left phase _ result =>
      rw [result]
      exact counted.of_left rfl (List.Subset.refl _) (ended_ne_selecting _)
  | failed _ _ _ result =>
      rw [result]
      exact counted.of_left rfl (List.nil_subset _) fun _ => ServePhase.noConfusion
  | rejected phase _ _ _ result =>
      rw [result]
      exact ⟨counted.numbered, fun again => ServePhase.selecting.inj again,
        fun _ _ => counted.whole _ phase⟩
  | spawned phase _ _ _ result =>
      obtain ⟨all, ran⟩ := counted.whole _ phase
      rw [result]
      refine ⟨?_, fun again => ServePhase.selecting.inj again, ?_⟩
      · intro number member
        simp only [List.map_append, List.map_cons, List.map_nil, List.mem_append,
          List.mem_singleton] at member
        rcases member with before | rfl
        · exact Nat.lt_succ_of_lt (counted.numbered number before)
        · exact Nat.lt_succ_self _
      · intro _ _
        simp only [List.length_append, List.length_singleton, running_append]
        omega

theorem Counted.complete {server : Serve} (counted : server.Counted) (number : Nat) :
    (server.complete number).Counted := by
  simp only [Serve.complete]
  split
  · rename_i member
    refine ⟨?_, counted.late, ?_⟩
    · simp only [numbers_replace]
      exact counted.numbered
    · intro late phase
      obtain ⟨all, ran⟩ := counted.whole late phase
      have fewer := running_replace member
      simp only [List.length_replace]
      omega
  · exact counted

theorem Counted.step {server : Serve} (counted : server.Counted) (label : ServeLabel) :
    (server.step label).Counted := by
  cases label with
  | arrive _ | abandon => exact ⟨counted.numbered, counted.late, counted.whole⟩
  | request => exact ⟨counted.numbered, fun _ => rfl, counted.whole⟩
  | poll first => exact counted.poll first
  | complete number => exact counted.complete number
  | join number =>
      simp only [Serve.step, Serve.join]
      split
      · exact counted.of_left rfl (List.erase_sublist.map _).subset (ended_ne_selecting _)
      · exact counted
  | timeout =>
      simp only [Serve.step, Serve.timeout]
      split
      · exact counted.of_left rfl (List.nil_subset _) fun _ => ServePhase.noConfusion
      · exact counted

theorem always_counted (maxConnections : Nat) (requested : Bool) (labels : List ServeLabel) :
    Always step Counted (start maxConnections requested) labels :=
  always_of_step (counted_start maxConnections requested) fun _ label counted => counted.step label

/-- The set holds no more tasks than connections may run, and what is logged as in flight
    runs. -/
structure TaskBound (server : Serve) : Prop where
  bounded : server.connections.length ≤ server.maxConnections
  logged : ∀ count ∈ server.inFlight, count = server.stillRunning

/-- A connection gets a task only while fewer than the maximum have ever been served, and
    the loop is left only before the first of them has completed. -/
def FewServed (server : Serve) : ServeLabel → Prop
  | .poll first => server.phase.inLoop = true →
      (server.chosen first = some .accept → server.backlog.head? = some .connection → server.permits ≠ 0 →
        server.served < server.maxConnections) ∧
      (server.chosen first = some .shutdown → server.completed = 0)
  | _ => True

instance (server : Serve) : (label : ServeLabel) → Decidable (server.FewServed label)
  | .poll first => inferInstanceAs (Decidable (server.phase.inLoop = true →
      (server.chosen first = some .accept → server.backlog.head? = some .connection → server.permits ≠ 0 →
        server.served < server.maxConnections) ∧
      (server.chosen first = some .shutdown → server.completed = 0)))
  | .arrive _ | .request | .abandon | .complete _ | .join _ | .timeout => .isTrue trivial

theorem TaskBound.of_fewer {before after : Serve} (bound : before.TaskBound)
    (limit : after.maxConnections = before.maxConnections) (inFlight : after.inFlight = before.inFlight)
    (stillRunning : after.stillRunning = before.stillRunning)
    (fewer : after.connections.length ≤ before.connections.length) : after.TaskBound := by
  refine ⟨?_, ?_⟩
  · rw [limit]
    exact le_trans fewer bound.bounded
  · rw [inFlight, stillRunning]
    exact bound.logged

theorem taskBound_poll_iff {server : Serve} (counted : server.Counted) (bound : server.TaskBound)
    (first : Branch) :
    (server.poll first).TaskBound ↔ server.FewServed (.poll first) := by
  cases server.polled first with
  | idle result quiet =>
      rw [result]
      refine iff_of_true bound ?_
      cases phase : server.phase with
      | selecting late =>
          simp only [FewServed, quiet late phase, reduceCtorEq, false_implies, and_self, implies_true]
      | draining | returned =>
          simp only [FewServed, phase, ServePhase.inLoop, Bool.false_eq_true, false_implies]
  | left phase picked result =>
      obtain ⟨all, ran⟩ := counted.whole _ phase
      simp only [result, FewServed, phase, ServePhase.inLoop, picked, Option.some.injEq,
        reduceCtorEq, false_implies, forall_const, true_and]
      constructor
      · intro after
        have same := after.logged _ rfl
        simp only [leave] at same
        omega
      · intro none
        refine ⟨bound.bounded, ?_⟩
        intro count logged
        simp only [leave, Option.mem_some_iff] at logged ⊢
        omega
  | failed phase picked next result =>
      rw [result]
      refine iff_of_true (bound.of_fewer rfl rfl rfl (Nat.zero_le _)) ?_
      simp only [FewServed, picked, next, List.head?_cons, Option.some.injEq, reduceCtorEq, false_implies,
        implies_true, and_self]
  | rejected phase picked next full result =>
      rw [result]
      refine iff_of_true (bound.of_fewer rfl rfl rfl le_rfl) ?_
      simp only [FewServed, picked, full, ne_eq, not_true, Option.some.injEq, reduceCtorEq, false_implies,
        implies_true, and_self]
  | spawned phase picked next free result =>
      obtain ⟨all, ran⟩ := counted.whole _ phase
      simp only [result, FewServed, phase, ServePhase.inLoop, picked, next, List.head?_cons, Option.some.injEq,
        reduceCtorEq, false_implies, and_true, forall_const]
      constructor
      · intro after _
        have more := after.bounded
        simp only [List.length_append, List.length_singleton] at more
        omega
      · intro few
        refine ⟨?_, bound.logged⟩
        simp only [List.length_append, List.length_singleton]
        have room := few free
        omega

theorem taskBound_step_iff {server : Serve} (counted : server.Counted) (bound : server.TaskBound)
    (label : ServeLabel) :
    (server.step label).TaskBound ↔ server.FewServed label := by
  cases label with
  | arrive _ | request | abandon => exact iff_of_true ⟨bound.bounded, bound.logged⟩ trivial
  | poll first => exact taskBound_poll_iff counted bound first
  | complete number =>
      refine iff_of_true ?_ trivial
      simp only [step, complete]
      split
      · exact bound.of_fewer rfl rfl rfl (le_of_eq List.length_replace)
      · exact bound
  | join number =>
      refine iff_of_true ?_ trivial
      simp only [step, join]
      split
      · exact bound.of_fewer rfl rfl rfl List.length_erase_le
      · exact bound
  | timeout =>
      refine iff_of_true ?_ trivial
      simp only [step, timeout]
      split
      · exact bound.of_fewer rfl rfl rfl (Nat.zero_le _)
      · exact bound

/-- The set stays within the bound, and the log counts only what runs, if and only if no
    more connections than may run at once are ever served, and none of them completes
    before the loop is left. -/
theorem task_entries_bounded_iff (maxConnections : Nat) (requested : Bool)
    (labels : List ServeLabel) :
    Always step TaskBound (start maxConnections requested) labels ↔
      EachStep step FewServed (start maxConnections requested) labels := by
  have counted := always_counted maxConnections requested labels
  have empty : (start maxConnections requested).TaskBound := ⟨Nat.zero_le _, fun _ none => by cases none⟩
  exact always_iff_eachStep_of_guard empty counted.before fun _ bound label _ here =>
    taskBound_step_iff here bound label

/-- Two connections, one after the other running, and the shutdown while both run. -/
def fullHouse : List ServeLabel :=
  [.arrive .connection, .poll .accept, .arrive .connection, .poll .shutdown, .request, .poll .accept]

theorem task_entries_bounded_full_house :
    ((fullHouse.foldl step (start 2 false)).connections.length ≤ 2 ∧
      (fullHouse.foldl step (start 2 false)).inFlight = some 2) := by
  have few : EachStep step FewServed (start 2 false) fullHouse := by
    simp only [fullHouse, eachStep_cons]
    exact ⟨trivial, by decide, trivial, by decide, trivial, by decide, eachStep_nil⟩
  exact ⟨((task_entries_bounded_iff 2 false fullHouse).mpr few fullHouse (List.prefix_refl _)).bounded, by decide⟩

/-- Two short connections, one after the other, where one may run at a time. -/
def shortConnections : List ServeLabel :=
  [.arrive .connection, .poll .accept, .complete 0, .arrive .connection, .poll .accept, .request,
    .poll .shutdown]

/-- The set holds two tasks of at most one connection, and both are logged as in flight. -/
theorem short_connections_exceed :
    ((shortConnections.take 5).foldl step (start 1 false)).connections.length = 2 ∧
      (shortConnections.foldl step (start 1 false)).inFlight = some 2 ∧
      (shortConnections.foldl step (start 1 false)).stillRunning = 1 ∧
      ¬ Always step TaskBound (start 1 false) shortConnections := by
  refine ⟨by decide, by decide, by decide, ?_⟩
  intro always
  have bounded := (always (shortConnections.take 5) (List.take_prefix _ _)).bounded
  revert bounded
  decide

/-- Whenever an iteration has begun after the request to shut down, the tasks from then on
    are among those that were there. -/
def TakesNoneLate (server : Serve) (labels : List ServeLabel) : Prop :=
  ∀ before later, before ++ later <+: labels → (before.foldl step server).phase = .selecting true →
    ((before ++ later).foldl step server).connections.map Task.number ⊆
      (before.foldl step server).connections.map Task.number

/-- A poll in an iteration that began after the request looks at the shutdown first, or
    finds no connection waiting or no permit free. -/
def ShutdownWins (server : Serve) : ServeLabel → Prop
  | .poll first => server.phase = .selecting true →
      first = .shutdown ∨ server.backlog.head? ≠ some .connection ∨ server.permits = 0
  | _ => True

instance (server : Serve) : (label : ServeLabel) → Decidable (server.ShutdownWins label)
  | .poll first => inferInstanceAs (Decidable (server.phase = .selecting true →
      first = .shutdown ∨ server.backlog.head? ≠ some .connection ∨ server.permits = 0))
  | .arrive _ | .request | .abandon | .complete _ | .join _ | .timeout => .isTrue trivial

/-- The last iterations, and what comes after the loop. -/
def Closing (server : Serve) : Prop := ∀ late, server.phase = .selecting late → late = true

theorem closing_poll {server : Serve} (counted : server.Counted) (closing : server.Closing)
    {first : Branch} (wins : server.ShutdownWins (.poll first)) : (server.poll first).Closing ∧
      (server.poll first).connections.map Task.number ⊆ server.connections.map Task.number := by
  cases server.polled first with
  | idle result _ =>
      rw [result]
      exact ⟨closing, List.Subset.refl _⟩
  | left _ _ result =>
      rw [result]
      exact ⟨fun late phase => absurd phase (ended_ne_selecting _ late), List.Subset.refl _⟩
  | failed _ _ _ result =>
      rw [result]
      exact ⟨fun _ => ServePhase.noConfusion, List.nil_subset _⟩
  | rejected phase _ _ _ result =>
      have requested : server.requested = true := by
        rw [closing _ phase] at phase
        exact counted.late phase
      rw [result]
      refine ⟨?_, List.Subset.refl _⟩
      intro late again
      rw [← ServePhase.selecting.inj again]
      exact requested
  | spawned phase picked next free result =>
      rw [closing _ phase] at phase
      rcases wins phase with rfl | none | full
      · simp only [chosen, shutdownReady, counted.late phase, Bool.true_or] at picked
        cases picked
      · rw [next] at none
        exact absurd rfl none
      · exact absurd full free

theorem closing_step {server : Serve} (counted : server.Counted) (closing : server.Closing)
    {label : ServeLabel} (wins : server.ShutdownWins label) : (server.step label).Closing ∧
      (server.step label).connections.map Task.number ⊆ server.connections.map Task.number := by
  cases label with
  | arrive _ | request | abandon => exact ⟨closing, List.Subset.refl _⟩
  | poll first => exact closing_poll counted closing wins
  | complete number =>
      simp only [step, complete]
      split
      · rw [numbers_replace]
        exact ⟨closing, List.Subset.refl _⟩
      · exact ⟨closing, List.Subset.refl _⟩
  | join number =>
      simp only [step, join]
      split
      · exact ⟨fun late phase => absurd phase (ended_ne_selecting _ late), (List.erase_sublist.map _).subset⟩
      · exact ⟨closing, List.Subset.refl _⟩
  | timeout =>
      simp only [step, timeout]
      split
      · exact ⟨fun _ => ServePhase.noConfusion, List.nil_subset _⟩
      · exact ⟨closing, List.Subset.refl _⟩

theorem closing_run {labels : List ServeLabel} {server : Serve} (counted : server.Counted)
    (closing : server.Closing) (wins : EachStep step ShutdownWins server labels) :
    (labels.foldl step server).connections.map Task.number ⊆ server.connections.map Task.number := by
  induction labels generalizing server with
  | nil => exact List.Subset.refl _
  | cons label labels ih =>
      obtain ⟨here, rest⟩ := eachStep_cons.mp wins
      obtain ⟨onward, fewer⟩ := closing_step counted closing here
      exact List.Subset.trans (ih (counted.step label) onward rest) fewer

/-- A late poll that does not look at the shutdown first spawns a task with a new number. -/
theorem shutdownWins_of_subset {server : Serve} (counted : server.Counted) {label : ServeLabel}
    (fewer : server.phase = .selecting true →
      (server.step label).connections.map Task.number ⊆ server.connections.map Task.number) :
    server.ShutdownWins label := by
  cases label with
  | arrive _ | request | abandon | complete _ | join _ | timeout => trivial
  | poll first =>
      intro phase
      by_contra taken
      simp only [not_or, not_not] at taken
      obtain ⟨order, head, free⟩ := taken
      obtain ⟨rest, next⟩ := List.head?_eq_some_iff.mp head
      have picked : server.chosen first = some .accept := by
        cases first with
        | shutdown => exact absurd rfl order
        | accept => simp only [chosen, next]
      cases server.polled first with
      | idle _ quiet =>
          rw [quiet true phase] at picked
          cases picked
      | left _ other _ =>
          rw [other] at picked
          cases picked
      | failed _ _ other _ =>
          rw [other] at next
          cases next
      | rejected _ _ _ full _ => exact free full
      | spawned _ _ _ _ result =>
          have inside := fewer phase
          simp only [step, result, List.map_append, List.map_cons, List.map_nil] at inside
          have old := counted.numbered _ (inside (List.mem_append_right _ List.mem_cons_self))
          exact absurd old (Nat.lt_irrefl _)

/-- After the request to shut down no iteration takes a connection, and the tasks only get
    fewer, if and only if each poll in such an iteration looks at the shutdown first, or
    finds no connection waiting or no permit free. -/
theorem none_taken_late_iff (maxConnections : Nat) (requested : Bool) (labels : List ServeLabel) :
    (start maxConnections requested).TakesNoneLate labels ↔
      EachStep step ShutdownWins (start maxConnections requested) labels := by
  have counted := always_counted maxConnections requested labels
  constructor
  · intro none before label inside
    have here := counted.before before label inside
    refine shutdownWins_of_subset here fun phase => ?_
    have fewer := none before [label] inside phase
    rw [List.foldl_append] at fewer
    exact fewer
  · intro wins before later inside phase
    have here := counted before ((List.prefix_append before later).trans inside)
    rw [List.foldl_append]
    refine closing_run here ?_ (wins.later inside)
    intro late again
    rw [phase] at again
    exact (ServePhase.selecting.inj again).symm

/-- A connection is waiting when the request comes, but the shutdown is looked at first. -/
def promptShutdown : List ServeLabel :=
  [.arrive .connection, .poll .accept, .request, .arrive .connection, .poll .accept,
    .arrive .connection, .poll .shutdown]

theorem none_taken_late_prompt :
    (start 4 false).TakesNoneLate promptShutdown ∧
      (promptShutdown.foldl step (start 4 false)).connections.map Task.number = [0, 1] := by
  refine ⟨(none_taken_late_iff 4 false promptShutdown).mpr ?_, by decide⟩
  simp only [promptShutdown, eachStep_cons]
  exact ⟨trivial, by decide, trivial, trivial, by decide, trivial, by decide, eachStep_nil⟩

/-- Two connections are waiting when the request comes, and the accept is looked at first,
    both in the iteration the request falls into and in the next. -/
def busyShutdown : List ServeLabel :=
  [.arrive .connection, .arrive .connection, .request, .poll .accept, .poll .accept]

/-- The second connection is taken by an iteration that began after the request. -/
theorem busy_shutdown_takes_late :
    ((busyShutdown.take 4).foldl step (start 4 false)).phase = .selecting true ∧
      ((busyShutdown.take 4).foldl step (start 4 false)).connections.map Task.number = [0] ∧
      (busyShutdown.foldl step (start 4 false)).connections.map Task.number = [0, 1] ∧
      ¬ (start 4 false).TakesNoneLate busyShutdown := by
  refine ⟨by decide, by decide, by decide, ?_⟩
  intro none
  have fewer := none (busyShutdown.take 4) [.poll .accept] (List.prefix_refl _) (by decide)
  have late : (1 : Nat) ∈ (busyShutdown.foldl step (start 4 false)).connections.map Task.number := by decide
  have before := fewer late
  revert before
  decide

end Serve

end AiProtect
