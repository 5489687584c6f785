import AiProtect.Core.Health
import AiProtect.Lib.Places
import AiProtect.Proxy.Process
import AiProtect.Proxy.Serve

/-! # The tasks of `run_with_config`

`run_with_config` spawns a task that waits for the signal to stop, one that reloads policy
files, and one for each `[[proxy]]` entry, and then takes them back as they finish. An entry
binds its listener and runs its accept loop. The first error ends everything: dropping the
set aborts what has not finished, and with each entry go the tasks of its connections.

What the reload task does with the files is left to `Process`; here it only has to end.
-/

namespace AiProtect

open Places Runs

inductive ProxyError where
  | bind
  | accept
  deriving DecidableEq, Repr

/-- The task of an entry: `proxy::run` before and after its listener is bound, and the entry
    it leaves in the set until it is joined. -/
inductive EntryTask where
  | binding (maxConnections : Nat)
  | serving (server : Serve)
  | finished (result : Except ProxyError Unit)
  | joined (result : Except ProxyError Unit)
  | aborted

namespace Serve

/-- The step takes an error off the listener, which `serve` returns. -/
def failsAt (server : Serve) : ServeLabel → Bool
  | .poll first => server.phase.inLoop && decide (server.chosen first = some .accept) &&
      decide (server.backlog.head? = some .failure)
  | _ => false

end Serve

namespace EntryTask

/-- The watch carries `true`, and its sender is gone. -/
def notify : EntryTask → EntryTask
  | .serving server => .serving ((server.step .request).step .abandon)
  | task => task

/-- `TcpListener::bind` returns. -/
def bound (requested listening : Bool) : EntryTask → EntryTask
  | .binding maxConnections =>
      if listening = true then
        let server := Serve.start maxConnections requested
        .serving (if requested = true then server.step .abandon else server)
      else .finished (.error .bind)
  | task => task

/-- A step of the accept loop or of what it serves; the watch is not theirs to change. -/
def serve (label : ServeLabel) : EntryTask → EntryTask
  | .serving server =>
      if label = .request ∨ label = .abandon then .serving server
      else if (server.step label).phase = .returned then
        .finished (if server.failsAt label = true then .error .accept else .ok ())
      else .serving (server.step label)
  | task => task

def isJoined : EntryTask → Bool
  | .joined _ => true
  | _ => false

/-- What dropping the set does to a task. -/
def abort : EntryTask → EntryTask
  | .binding _ | .serving _ => .aborted
  | task => task

end EntryTask

structure Supervisor where
  requested : Bool
  signalJoined : Bool
  reload : Reload
  reloadJoined : Bool
  entries : List EntryTask
  result : Option (Except ProxyError Unit)

inductive SupervisorLabel where
  | signal
  | hangup
  | load
  | exit
  | bound (entry : Nat) (listening : Bool)
  | serve (entry : Nat) (label : ServeLabel)
  | joinSignal
  | joinReload
  | join (entry : Nat)
  | joinNone

namespace Supervisor

/-- The tasks are spawned; each entry comes with its `max_connections`. -/
def start (limits : List Nat) : Supervisor where
  requested := false
  signalJoined := false
  reload := .waiting
  reloadJoined := false
  entries := limits.map .binding
  result := none

def hangup (supervisor : Supervisor) : Supervisor :=
  match supervisor.reload with
  | .waiting => { supervisor with reload := .onward (List.range supervisor.entries.length) }
  | _ => supervisor

def load (supervisor : Supervisor) : Supervisor :=
  match supervisor.reload with
  | .loading (_ :: rest) => { supervisor with reload := .onward rest }
  | _ => supervisor

/-- The reload task looks at the watch between two hangups only. -/
def exit (supervisor : Supervisor) : Supervisor :=
  if supervisor.reload = .waiting ∧ supervisor.requested = true then { supervisor with reload := .exited }
  else supervisor

/-- `join_next` hands out the task of an entry. -/
def join (supervisor : Supervisor) (index : Nat) : Supervisor :=
  match supervisor.entries[index]? with
  | some (.finished (.ok ())) => { supervisor with entries := supervisor.entries.set index (.joined (.ok ())) }
  | some (.finished (.error error)) => { supervisor with
      entries := (supervisor.entries.set index (.joined (.error error))).map EntryTask.abort
      result := some (.error error) }
  | _ => supervisor

/-- `join_next` finds the set empty. -/
def joinNone (supervisor : Supervisor) : Supervisor :=
  if supervisor.signalJoined = true ∧ supervisor.reloadJoined = true ∧
      supervisor.entries.all EntryTask.isJoined = true then { supervisor with result := some (.ok ()) }
  else supervisor

/-- A step while `run_with_config` runs. -/
def advance (supervisor : Supervisor) : SupervisorLabel → Supervisor
  | .signal => { supervisor with requested := true, entries := supervisor.entries.map EntryTask.notify }
  | .hangup => supervisor.hangup
  | .load => supervisor.load
  | .exit => supervisor.exit
  | .bound entry listening =>
      { supervisor with entries := supervisor.entries.modify entry (EntryTask.bound supervisor.requested listening) }
  | .serve entry label => { supervisor with entries := supervisor.entries.modify entry (EntryTask.serve label) }
  | .joinSignal => if supervisor.requested = true then { supervisor with signalJoined := true } else supervisor
  | .joinReload => if supervisor.reload = .exited then { supervisor with reloadJoined := true } else supervisor
  | .join entry => supervisor.join entry
  | .joinNone => supervisor.joinNone

/-- Nothing happens any more once `run_with_config` has returned. -/
def step (supervisor : Supervisor) (label : SupervisorLabel) : Supervisor :=
  if supervisor.result.isSome = true then supervisor else supervisor.advance label

end Supervisor

namespace Serve

variable {server : Serve} {label : ServeLabel}

/-- Every permit is free or with a task that runs. -/
def Permitted (server : Serve) : Prop := running server.connections + server.permits = server.maxConnections

/-- A step that is not the watch's leaves what the watch says, and no step changes the limit. -/
theorem step_watch (own : label ≠ .request ∧ label ≠ .abandon) :
    (server.step label).requested = server.requested ∧ (server.step label).abandoned = server.abandoned ∧
      (server.step label).maxConnections = server.maxConnections := by
  cases label with
  | arrive _ => exact ⟨rfl, rfl, rfl⟩
  | request => exact absurd rfl own.1
  | abandon => exact absurd rfl own.2
  | poll first =>
      simp only [step]
      cases server.polled first with
      | idle result _ | left _ _ result | failed _ _ _ result | rejected _ _ _ _ result | spawned _ _ _ _ result =>
          rw [result]
          exact ⟨rfl, rfl, rfl⟩
  | complete number =>
      simp only [step, complete]
      split <;> exact ⟨rfl, rfl, rfl⟩
  | join number =>
      simp only [step, join]
      split <;> exact ⟨rfl, rfl, rfl⟩
  | timeout =>
      simp only [step, timeout]
      split <;> exact ⟨rfl, rfl, rfl⟩

theorem shutdownReady_of_chosen {first : Branch} (picked : server.chosen first = some .shutdown) :
    server.shutdownReady = true := by
  cases ready : server.shutdownReady with
  | true => rfl
  | false =>
      simp only [chosen, ready] at picked
      revert picked
      cases first <;> cases server.backlog <;> intro picked <;> cases picked

/-- The loop is left only because the watch says so, or with an error. -/
theorem left_of_step (outside : (server.step label).phase.inLoop = false) :
    server.phase.inLoop = false ∨ server.shutdownReady = true ∨
      (server.failsAt label = true ∧ (server.step label).phase = .returned) := by
  cases label with
  | arrive _ | request | abandon => exact .inl outside
  | poll first =>
      simp only [step] at outside ⊢
      cases server.polled first with
      | idle result _ =>
          rw [result] at outside
          exact .inl outside
      | left _ picked _ => exact .inr (.inl (shutdownReady_of_chosen picked))
      | failed phase picked next result =>
          refine .inr (.inr ⟨?_, by rw [result]⟩)
          simp only [failsAt, phase, ServePhase.inLoop, picked, next, List.head?_cons, decide_true, Bool.and_self]
      | rejected _ _ _ _ result | spawned _ _ _ _ result =>
          rw [result] at outside
          cases outside
  | complete number =>
      simp only [step, complete] at outside
      split at outside <;> exact .inl outside
  | join number =>
      simp only [step, join] at outside
      split at outside
      · rename_i draining
        exact .inl (by rw [draining.1]; rfl)
      · exact .inl outside
  | timeout =>
      simp only [step, timeout] at outside
      split at outside
      · rename_i draining
        exact .inl (by rw [draining]; rfl)
      · exact .inl outside

theorem permitted_start (maxConnections : Nat) (requested : Bool) : (start maxConnections requested).Permitted :=
  Nat.zero_add _

theorem Permitted.step (permitted : server.Permitted) (going : (server.step label).phase ≠ .returned) :
    (server.step label).Permitted := by
  cases label with
  | arrive _ | request | abandon => exact permitted
  | poll first =>
      simp only [Serve.step] at going ⊢
      cases server.polled first with
      | idle result _ | rejected _ _ _ _ result | left _ _ result =>
          rw [result]
          exact permitted
      | failed _ _ _ result =>
          rw [result] at going
          exact absurd rfl going
      | spawned _ _ _ free result =>
          rw [result]
          simp only [Permitted, running_append] at permitted ⊢
          omega
  | complete number =>
      simp only [Serve.step, Serve.complete] at going ⊢
      split
      · rename_i member
        have fewer := running_replace member
        simp only [Permitted] at permitted ⊢
        omega
      · exact permitted
  | join number =>
      simp only [Serve.step, Serve.join] at going ⊢
      split
      · rename_i drained
        have same : running (server.connections.erase ⟨number, false⟩) = running server.connections := by
          rw [running, List.countP_erase, if_neg fun runs => Bool.false_ne_true runs.2]
          rfl
        simp only [Permitted, same] at permitted ⊢
        exact permitted
      · exact permitted
  | timeout =>
      simp only [Serve.step, Serve.timeout] at going ⊢
      split
      · rename_i draining
        rw [if_pos draining] at going
        exact absurd rfl going
      · exact permitted

end Serve

namespace EntryTask

variable {task : EntryTask} {requested : Bool} {limit : Nat}

/-- What an entry may be like, by what the watch carries: its accept loop has seen the same
    value, and without a request it goes on, or has failed. -/
inductive Fits (requested : Bool) (limit : Nat) : EntryTask → Prop where
  | binding : Fits requested limit (.binding limit)
  | serving {server : Serve} (going : server.phase ≠ .returned) (told : server.requested = requested)
      (abandoned : server.abandoned = true → requested = true)
      (accepting : requested = false → server.phase.inLoop = true) (permitted : server.Permitted)
      (limited : server.maxConnections = limit) :
      Fits requested limit (.serving server)
  | finished {result : Except ProxyError Unit} (asked : result = .ok () → requested = true) :
      Fits requested limit (.finished result)
  | joined {result : Except ProxyError Unit} (asked : result = .ok () → requested = true) :
      Fits requested limit (.joined result)
  | aborted : Fits requested limit .aborted

theorem Fits.notify (fits : task.Fits requested limit) : task.notify.Fits true limit := by
  cases fits with
  | binding => exact .binding
  | serving going _ _ _ permitted limited =>
      exact .serving going rfl (fun _ => rfl) (fun no => by cases no) permitted limited
  | finished _ => exact .finished fun _ => rfl
  | joined _ => exact .joined fun _ => rfl
  | aborted => exact .aborted

theorem Fits.bound (fits : task.Fits requested limit) (listening : Bool) :
    (task.bound requested listening).Fits requested limit := by
  cases fits with
  | binding =>
      simp only [EntryTask.bound]
      split
      · cases requested with
        | true =>
            exact .serving ServePhase.noConfusion rfl (fun _ => rfl) (fun no => by cases no)
              (Serve.permitted_start _ true) rfl
        | false =>
            exact .serving ServePhase.noConfusion rfl (fun no => by cases no) (fun _ => rfl)
              (Serve.permitted_start _ false) rfl
      · exact .finished fun no => by cases no
  | serving going told abandoned accepting permitted limited =>
      exact .serving going told abandoned accepting permitted limited
  | finished asked => exact .finished asked
  | joined asked => exact .joined asked
  | aborted => exact .aborted

theorem Fits.serve (fits : task.Fits requested limit) (label : ServeLabel) :
    (task.serve label).Fits requested limit := by
  cases fits with
  | @serving server going told abandoned accepting permitted limited =>
      simp only [EntryTask.serve]
      split
      · exact .serving going told abandoned accepting permitted limited
      · rename_i own
        obtain ⟨same, stays, capped⟩ := @Serve.step_watch server label (not_or.mp own)
        have asked : (server.step label).phase.inLoop = false →
            requested = true ∨ (server.failsAt label = true ∧ (server.step label).phase = .returned) := by
          intro outside
          rcases Serve.left_of_step outside with before | ready | failed
          · cases requested with
            | true => exact .inl rfl
            | false =>
                rw [accepting rfl] at before
                cases before
          · rw [Serve.shutdownReady, told, Bool.or_eq_true] at ready
            exact .inl (ready.elim id abandoned)
          · exact .inr failed
        split
        · rename_i returned
          refine .finished fun ok => ?_
          rcases asked (by rw [returned]; rfl) with yes | ⟨failed, -⟩
          · exact yes
          · rw [if_pos failed] at ok
            cases ok
        · rename_i goes
          refine .serving goes (same.trans told) (fun dropped => abandoned (stays ▸ dropped)) ?_ (permitted.step goes)
            (capped.trans limited)
          intro no
          by_contra outside
          rw [Bool.not_eq_true] at outside
          rcases asked outside with yes | ⟨-, returned⟩
          · rw [yes] at no
            cases no
          · exact goes returned
  | binding => exact .binding
  | finished asked => exact .finished asked
  | joined asked => exact .joined asked
  | aborted => exact .aborted

/-- A task as it may be while `run_with_config` runs. -/
def Held (task : EntryTask) : Prop := task ≠ .aborted ∧ ∀ error, task ≠ .joined (.error error)

/-- The task neither runs nor waits to. -/
def Stopped (task : EntryTask) : Prop := (∀ limit, task ≠ .binding limit) ∧ ∀ server, task ≠ .serving server

theorem Held.notify (held : task.Held) : task.notify.Held := by
  cases task with
  | serving _ => exact ⟨EntryTask.noConfusion, fun _ => EntryTask.noConfusion⟩
  | binding _ | finished _ | joined _ | aborted => exact held

theorem Held.bound (held : task.Held) (requested listening : Bool) : (task.bound requested listening).Held := by
  cases task with
  | binding _ =>
      simp only [EntryTask.bound]
      split <;> exact ⟨EntryTask.noConfusion, fun _ => EntryTask.noConfusion⟩
  | serving _ | finished _ | joined _ | aborted => exact held

theorem Held.serve (held : task.Held) (label : ServeLabel) : (task.serve label).Held := by
  cases task with
  | serving _ =>
      simp only [EntryTask.serve]
      split
      · exact held
      · split <;> exact ⟨EntryTask.noConfusion, fun _ => EntryTask.noConfusion⟩
  | binding _ | finished _ | joined _ | aborted => exact held

theorem stopped_abort (task : EntryTask) : task.abort.Stopped := by
  cases task <;> exact ⟨fun _ => EntryTask.noConfusion, fun _ => EntryTask.noConfusion⟩

theorem Fits.abort (fits : task.Fits requested limit) : task.abort.Fits requested limit := by
  cases fits with
  | binding | serving _ _ _ _ _ _ | aborted => exact .aborted
  | finished asked => exact .finished asked
  | joined asked => exact .joined asked

end EntryTask

namespace Supervisor

/-- Each entry fits what the watch carries and its own limit. -/
def Fitting (limits : List Nat) (requested : Bool) (entries : List EntryTask) : Prop :=
  ∀ (index : Nat) (task : EntryTask), entries[index]? = some task →
    ∃ limit, limits[index]? = some limit ∧ task.Fits requested limit

theorem forall_mem_modify {entries : List EntryTask} {P : EntryTask → Prop} (all : ∀ task ∈ entries, P task)
    {place : Nat} {change : EntryTask → EntryTask} (kept : ∀ task, P task → P (change task)) :
    ∀ task ∈ entries.modify place change, P task := by
  intro task member
  obtain ⟨index, found⟩ := List.getElem?_of_mem member
  rw [List.getElem?_modify] at found
  obtain ⟨before, there, rfl⟩ := Option.map_eq_some_iff.mp found
  have here := all before (List.mem_of_getElem? there)
  split
  · exact kept before here
  · exact here

section Fitting

variable {limits : List Nat} {requested : Bool} {entries : List EntryTask}

theorem Fitting.map (fitting : Fitting limits requested entries) {after : Bool} {change : EntryTask → EntryTask}
    (kept : ∀ task limit, task.Fits requested limit → (change task).Fits after limit) :
    Fitting limits after (entries.map change) := by
  intro index task found
  rw [List.getElem?_map] at found
  obtain ⟨before, there, rfl⟩ := Option.map_eq_some_iff.mp found
  obtain ⟨limit, limited, fits⟩ := fitting index before there
  exact ⟨limit, limited, kept before limit fits⟩

theorem Fitting.modify (fitting : Fitting limits requested entries) (place : Nat) {change : EntryTask → EntryTask}
    (kept : ∀ task limit, task.Fits requested limit → (change task).Fits requested limit) :
    Fitting limits requested (entries.modify place change) := by
  intro index task found
  rw [List.getElem?_modify] at found
  obtain ⟨before, there, rfl⟩ := Option.map_eq_some_iff.mp found
  obtain ⟨limit, limited, fits⟩ := fitting index before there
  refine ⟨limit, limited, ?_⟩
  split
  · exact kept before limit fits
  · exact fits

/-- A task is joined as it has finished. -/
theorem Fitting.join (fitting : Fitting limits requested entries) {place : Nat} {result : Except ProxyError Unit}
    (found : entries[place]? = some (.finished result)) :
    Fitting limits requested (entries.set place (.joined result)) := by
  intro index task there
  rcases getElem?_set_cases there with ⟨rfl, rfl⟩ | ⟨-, old⟩
  · obtain ⟨limit, limited, fits⟩ := fitting index _ found
    cases fits with
    | finished asked => exact ⟨limit, limited, .joined asked⟩
  · exact fitting index task old

end Fitting

/-- Everything a step can come to, with what it found. -/
inductive Change (supervisor : Supervisor) : Supervisor → Prop where
  | same : Change supervisor supervisor
  | requested : Change supervisor
      { supervisor with requested := true, entries := supervisor.entries.map EntryTask.notify }
  | turned {rest : List Nat} (live : supervisor.reload ≠ .exited) :
      Change supervisor { supervisor with reload := .onward rest }
  | exited (asked : supervisor.requested = true) : Change supervisor { supervisor with reload := .exited }
  | bound (entry : Nat) (listening : Bool) : Change supervisor { supervisor with
      entries := supervisor.entries.modify entry (EntryTask.bound supervisor.requested listening) }
  | served (entry : Nat) (label : ServeLabel) : Change supervisor { supervisor with
      entries := supervisor.entries.modify entry (EntryTask.serve label) }
  | signalJoined (asked : supervisor.requested = true) : Change supervisor { supervisor with signalJoined := true }
  | reloadJoined (gone : supervisor.reload = .exited) : Change supervisor { supervisor with reloadJoined := true }
  | joined {entry : Nat} (found : supervisor.entries[entry]? = some (.finished (.ok ()))) :
      Change supervisor { supervisor with entries := supervisor.entries.set entry (.joined (.ok ())) }
  | failed {entry : Nat} {error : ProxyError} (found : supervisor.entries[entry]? = some (.finished (.error error))) :
      Change supervisor { supervisor with
        entries := (supervisor.entries.set entry (.joined (.error error))).map EntryTask.abort
        result := some (.error error) }
  | returned (signal : supervisor.signalJoined = true) (reload : supervisor.reloadJoined = true)
      (all : supervisor.entries.all EntryTask.isJoined = true) :
      Change supervisor { supervisor with result := some (.ok ()) }

theorem change (supervisor : Supervisor) (label : SupervisorLabel) :
    supervisor.Change (supervisor.advance label) := by
  cases label with
  | signal => exact .requested
  | hangup =>
      simp only [advance, hangup]
      split
      · rename_i waiting
        exact .turned (by rw [waiting]; exact Reload.noConfusion)
      · exact .same
  | load =>
      simp only [advance, load]
      split
      · rename_i loading
        exact .turned (by rw [loading]; exact Reload.noConfusion)
      · exact .same
  | exit =>
      simp only [advance, exit]
      split
      · rename_i ready
        exact .exited ready.2
      · exact .same
  | bound entry listening => exact .bound entry listening
  | serve entry label => exact .served entry label
  | joinSignal =>
      simp only [advance]
      split
      · rename_i asked
        exact .signalJoined asked
      · exact .same
  | joinReload =>
      simp only [advance]
      split
      · rename_i gone
        exact .reloadJoined gone
      · exact .same
  | join entry =>
      simp only [advance, join]
      split
      · rename_i found
        exact .joined found
      · rename_i found
        exact .failed found
      · exact .same
  | joinNone =>
      simp only [advance, joinNone]
      split
      · rename_i empty
        exact .returned empty.1 empty.2.1 empty.2.2
      · exact .same

/-- What holds of the tasks between two steps. -/
structure Orderly (limits : List Nat) (supervisor : Supervisor) : Prop where
  whole : supervisor.entries.length = limits.length
  fitting : Fitting limits supervisor.requested supervisor.entries
  exits : supervisor.reload = .exited → supervisor.requested = true
  reloadJoins : supervisor.reloadJoined = true → supervisor.reload = .exited
  loads : supervisor.reload ≠ .loading []
  held : supervisor.result = none → ∀ task ∈ supervisor.entries, task.Held
  ended : supervisor.result = some (.ok ()) → supervisor.requested = true ∧ supervisor.reload = .exited ∧
    ∀ task ∈ supervisor.entries, task = .joined (.ok ())
  failed : ∀ error, supervisor.result = some (.error error) → .joined (.error error) ∈ supervisor.entries ∧
    ∀ task ∈ supervisor.entries, task.Stopped

theorem orderly_start (limits : List Nat) : (start limits).Orderly limits where
  whole := List.length_map _
  fitting := by
    intro index task found
    simp only [start, List.getElem?_map] at found
    obtain ⟨limit, there, rfl⟩ := Option.map_eq_some_iff.mp found
    exact ⟨limit, there, .binding⟩
  exits := fun gone => by cases gone
  reloadJoins := fun joined => by cases joined
  loads := Reload.noConfusion
  held := by
    intro _ task member
    obtain ⟨limit, -, rfl⟩ := List.mem_map.mp member
    exact ⟨EntryTask.noConfusion, fun _ => EntryTask.noConfusion⟩
  ended := fun done => by cases done
  failed := fun _ done => by cases done

theorem Change.orderly {limits : List Nat} {supervisor after : Supervisor} (change : supervisor.Change after)
    (running : supervisor.result = none) (orderly : supervisor.Orderly limits) : after.Orderly limits := by
  obtain ⟨whole, fitting, exits, reloadJoins, loads, held, -, -⟩ := orderly
  have held := held running
  -- as long as there is no result, the last two say nothing
  have none : ∀ {P : Prop} {result : Except ProxyError Unit}, supervisor.result = some result → P := by
    intro P result done
    rw [running] at done
    cases done
  cases change with
  | same => exact ⟨whole, fitting, exits, reloadJoins, loads, fun _ => held, none, fun _ => none⟩
  | requested =>
      refine ⟨(List.length_map _).trans whole, fitting.map fun _ _ fits => fits.notify, fun _ => rfl, reloadJoins,
        loads, ?_, none, fun _ => none⟩
      intro _ task member
      obtain ⟨before, there, rfl⟩ := List.mem_map.mp member
      exact (held before there).notify
  | @turned rest live =>
      refine ⟨whole, fitting, fun gone => absurd gone (Reload.onward_ne_exited rest), fun joined => ?_, ?_,
        fun _ => held, none, fun _ => none⟩
      · exact absurd (reloadJoins joined) live
      · cases rest <;> exact fun same => by cases same
  | exited asked =>
      exact ⟨whole, fitting, fun _ => asked, fun _ => rfl, Reload.noConfusion, fun _ => held, none, fun _ => none⟩
  | bound entry listening =>
      refine ⟨(List.length_modify _ _ _).trans whole, fitting.modify entry fun _ _ fits => fits.bound listening, exits,
        reloadJoins, loads, fun _ => ?_, none, fun _ => none⟩
      exact forall_mem_modify held fun _ here => here.bound supervisor.requested listening
  | served entry label =>
      refine ⟨(List.length_modify _ _ _).trans whole, fitting.modify entry fun _ _ fits => fits.serve label, exits,
        reloadJoins, loads, fun _ => ?_, none, fun _ => none⟩
      exact forall_mem_modify held fun _ here => here.serve label
  | signalJoined _ => exact ⟨whole, fitting, exits, reloadJoins, loads, fun _ => held, none, fun _ => none⟩
  | reloadJoined gone => exact ⟨whole, fitting, exits, fun _ => gone, loads, fun _ => held, none, fun _ => none⟩
  | joined found =>
      refine ⟨List.length_set.trans whole, fitting.join found, exits, reloadJoins, loads, ?_, none, fun _ => none⟩
      intro _ task member
      rcases List.mem_or_eq_of_mem_set member with old | rfl
      · exact held task old
      · exact ⟨EntryTask.noConfusion, fun _ same => by cases same⟩
  | @failed entry error found =>
      obtain ⟨inside, -⟩ := List.getElem?_eq_some_iff.mp found
      refine ⟨(List.length_map _).trans (List.length_set.trans whole),
        (fitting.join found).map fun _ _ fits => fits.abort, exits, reloadJoins, loads,
        fun still => (by cases still), fun done => (by cases done), ?_⟩
      intro other same
      cases same
      refine ⟨List.mem_map.mpr ⟨_, List.mem_set inside _, rfl⟩, ?_⟩
      intro task member
      obtain ⟨before, -, rfl⟩ := List.mem_map.mp member
      exact before.stopped_abort
  | returned signal reload all =>
      have gone := reloadJoins reload
      refine ⟨whole, fitting, exits, reloadJoins, loads, fun still => (by cases still), ?_,
        fun _ done => (by cases done)⟩
      intro _
      refine ⟨exits gone, gone, fun task member => ?_⟩
      have isJoined := List.all_eq_true.mp all task member
      have here := held task member
      cases task with
      | joined result =>
          cases result with
          | ok => rfl
          | error error => exact absurd rfl (here.2 error)
      | binding _ | serving _ | finished _ | aborted => cases isJoined

theorem Orderly.step {limits : List Nat} {supervisor : Supervisor} (orderly : supervisor.Orderly limits)
    (label : SupervisorLabel) : (supervisor.step label).Orderly limits := by
  simp only [Supervisor.step]
  split
  · exact orderly
  · rename_i running
    exact (supervisor.change label).orderly (by simpa using running) orderly

theorem always_orderly (limits : List Nat) (labels : List SupervisorLabel) :
    Always step (Orderly limits) (start limits) labels :=
  always_of_step (orderly_start limits) fun _ label orderly => orderly.step label

/-- At every point of every run: while `/readyz` says yes, no entry has left its accept loop
    but with an error, nor does any have a reason to; no entry runs more connections than
    its limit; `run_with_config` returns without an error only after a signal, when every
    entry has stopped without one; and an error it returns is one of an entry's, and leaves
    no entry running. -/
theorem entries_stop_as_asked (limits : List Nat) (labels : List SupervisorLabel) :
    Always step (fun supervisor =>
      (Health.respond "/readyz" supervisor.requested = Health.okResponse →
        ∀ task ∈ supervisor.entries, task ≠ .finished (.ok ()) ∧ task ≠ .joined (.ok ()) ∧
          ∀ server, task = .serving server → server.phase.inLoop = true ∧ server.shutdownReady = false) ∧
      (∀ (index : Nat) (server : Serve), supervisor.entries[index]? = some (.serving server) →
        ∃ limit, limits[index]? = some limit ∧ Serve.running server.connections ≤ limit) ∧
      (supervisor.result = some (.ok ()) → supervisor.requested = true ∧
        supervisor.entries = limits.map fun _ => .joined (.ok ())) ∧
      ∀ error, supervisor.result = some (.error error) → .joined (.error error) ∈ supervisor.entries ∧
        ∀ task ∈ supervisor.entries, task.Stopped) (start limits) labels := by
  intro before inside
  obtain ⟨whole, fitting, exits, -, -, -, ended, failed⟩ := always_orderly limits labels before inside
  generalize before.foldl step (start limits) = supervisor at whole fitting exits ended failed ⊢
  refine ⟨?_, ?_, ?_, failed⟩
  · intro ready task member
    have no : supervisor.requested = false := by
      cases asked : supervisor.requested with
      | false => rfl
      | true =>
          rw [asked] at ready
          revert ready
          decide
    obtain ⟨index, found⟩ := List.getElem?_of_mem member
    obtain ⟨limit, -, fits⟩ := fitting index task found
    rw [no] at fits
    cases fits with
    | binding | aborted => exact ⟨EntryTask.noConfusion, EntryTask.noConfusion, fun _ => EntryTask.noConfusion⟩
    | serving _ told abandoned accepting _ _ =>
        refine ⟨EntryTask.noConfusion, EntryTask.noConfusion, fun server same => ?_⟩
        cases same
        refine ⟨accepting rfl, ?_⟩
        rw [Serve.shutdownReady, told, Bool.false_or]
        exact Bool.eq_false_iff.mpr fun dropped => by cases abandoned dropped
    | finished asked =>
        refine ⟨fun same => ?_, EntryTask.noConfusion, fun _ => EntryTask.noConfusion⟩
        cases asked (EntryTask.finished.inj same)
    | joined asked =>
        refine ⟨EntryTask.noConfusion, fun same => ?_, fun _ => EntryTask.noConfusion⟩
        cases asked (EntryTask.joined.inj same)
  · intro index server found
    obtain ⟨limit, limited, fits⟩ := fitting index _ found
    cases fits with
    | serving _ _ _ _ permitted cap =>
        rw [Serve.Permitted, cap] at permitted
        exact ⟨limit, limited, by omega⟩
  · intro done
    obtain ⟨asked, -, all⟩ := ended done
    refine ⟨asked, ?_⟩
    rw [List.map_const', ← whole]
    exact List.eq_replicate_of_mem all

end Supervisor

namespace EntryTask

/-- The steps a task has yet to take, at most, once it has been asked to stop. -/
def owes : EntryTask → Nat
  | .binding _ => 4
  | .serving server => if server.phase = .draining then 2 else 3
  | .finished _ => 1
  | .joined _ | .aborted => 0

def Unfailed (task : EntryTask) : Prop :=
  ∀ error, task ≠ .finished (.error error) ∧ task ≠ .joined (.error error)

/-- An entry that has been asked to stop can take a step towards that. -/
theorem Fits.proceeds {task : EntryTask} {limit : Nat} (fits : task.Fits true limit) (owing : 0 < task.owes) :
    (∃ result, task = .finished result) ∨ ∃ next : EntryTask, next.owes < task.owes ∧ next.Unfailed ∧
      (next = task.bound true true ∨ ∃ label, next = task.serve label) := by
  have unfailed : ∀ server : Serve, (EntryTask.serving server).Unfailed :=
    fun _ _ => ⟨EntryTask.noConfusion, EntryTask.noConfusion⟩
  have stopped : (EntryTask.finished (.ok ())).Unfailed := fun _ => ⟨fun same => (by cases same), EntryTask.noConfusion⟩
  cases fits with
  | binding => exact .inr ⟨(EntryTask.binding limit).bound true true, Nat.lt_succ_self 3, unfailed _, .inl rfl⟩
  | @serving server going told _ _ _ _ =>
      cases phase : server.phase with
      | returned => exact absurd phase going
      | draining =>
          have ends : (EntryTask.serving server).serve .timeout = .finished (.ok ()) := by
            simp [EntryTask.serve, Serve.step, Serve.timeout, phase, Serve.failsAt]
          refine .inr ⟨.finished (.ok ()), ?_, stopped, .inr ⟨.timeout, ends.symm⟩⟩
          simp only [owes, phase, if_true]
          decide
      | selecting late =>
          have picked : server.chosen .shutdown = some .shutdown := by
            simp only [Serve.chosen, Serve.shutdownReady, told, Bool.true_or]
          have leaves : server.step (.poll .shutdown) = server.leave := by
            simp only [Serve.step, Serve.poll, phase, picked]
          have well : server.failsAt (.poll .shutdown) = false := by
            simp [Serve.failsAt, picked]
          have three : (EntryTask.serving server).owes = 3 := by simp [owes, phase]
          rw [three]
          by_cases empty : server.connections = []
          · have ends : (EntryTask.serving server).serve (.poll .shutdown) = .finished (.ok ()) := by
              simp [EntryTask.serve, leaves, Serve.leave, empty, well]
            exact .inr ⟨.finished (.ok ()), by decide, stopped, .inr ⟨_, ends.symm⟩⟩
          · have drains : (EntryTask.serving server).serve (.poll .shutdown) = .serving server.leave := by
              simp [EntryTask.serve, leaves, Serve.leave, empty]
            refine .inr ⟨.serving server.leave, ?_, unfailed _, .inr ⟨_, drains.symm⟩⟩
            simp [owes, Serve.leave, empty]
  | finished _ => exact .inl ⟨_, rfl⟩
  | joined _ | aborted => exact absurd owing (Nat.lt_irrefl 0)

end EntryTask

namespace Reload

/-- The steps the reload task has yet to take, if no hangup comes in between. -/
def owes (joined : Bool) : Reload → Nat
  | .waiting => 2
  | .loading rest => rest.length + 2
  | .exited => if joined = true then 0 else 1

theorem owes_onward (joined : Bool) (rest : List Nat) : (Reload.onward rest).owes joined = rest.length + 2 := by
  cases rest <;> rfl

end Reload

namespace Supervisor

/-- The steps it takes, at most, until `run_with_config` can have returned. -/
def owes (supervisor : Supervisor) : Nat :=
  if supervisor.result.isSome = true then 0
  else (supervisor.entries.map EntryTask.owes).sum + (if supervisor.signalJoined = true then 0 else 1) +
    supervisor.reload.owes supervisor.reloadJoined + 1

/-- No entry has failed. -/
def Unfailed (supervisor : Supervisor) : Prop := ∀ task ∈ supervisor.entries, task.Unfailed

/-- A step towards the end, which adds no failure. -/
def Descends (supervisor : Supervisor) (label : SupervisorLabel) : Prop :=
  (supervisor.step label).owes < supervisor.owes ∧ (supervisor.step label).requested = true ∧
    (supervisor.Unfailed → (supervisor.step label).Unfailed)

section Descent

variable {limits : List Nat} {supervisor : Supervisor}

theorem step_of_running (running : supervisor.result = none) (label : SupervisorLabel) :
    supervisor.step label = supervisor.advance label := by
  rw [step]
  refine if_neg ?_
  rw [running]
  exact Bool.false_ne_true

theorem owes_of_running (running : supervisor.result = none) : supervisor.owes =
    (supervisor.entries.map EntryTask.owes).sum + (if supervisor.signalJoined = true then 0 else 1) +
      supervisor.reload.owes supervisor.reloadJoined + 1 := by
  rw [owes]
  refine if_neg ?_
  rw [running]
  exact Bool.false_ne_true

theorem descends_at (asked : supervisor.requested = true) (running : supervisor.result = none) {label : SupervisorLabel}
    {index : Nat} {task next : EntryTask} (found : supervisor.entries[index]? = some task)
    (does : supervisor.advance label = { supervisor with entries := supervisor.entries.set index next })
    (less : next.owes < task.owes) (unfailed : next.Unfailed) : supervisor.Descends label := by
  rw [Descends, step_of_running running, does]
  refine ⟨?_, asked, fun well other member => ?_⟩
  · have moved := sum_set EntryTask.owes next found
    rw [owes_of_running running, owes_of_running (by exact running)]
    dsimp only
    omega
  · rcases List.mem_or_eq_of_mem_set member with old | rfl
    · exact well other old
    · exact unfailed

theorem descends_of (asked : supervisor.requested = true) (running : supervisor.result = none)
    {label : SupervisorLabel} {after : Supervisor} (does : supervisor.advance label = after)
    (entries : after.entries = supervisor.entries) (requested : after.requested = supervisor.requested)
    (less : after.owes < supervisor.owes) : supervisor.Descends label := by
  rw [Descends, step_of_running running, does, Unfailed, Unfailed, entries]
  exact ⟨less, requested.trans asked, id⟩

theorem modify_of_found {entries : List EntryTask} {index : Nat} {task : EntryTask}
    (found : entries[index]? = some task) (change : EntryTask → EntryTask) :
    entries.modify index change = entries.set index (change task) := by
  rw [List.modify_eq_set_getElem?, found]
  rfl

/-- An entry that is not joined yet gets on. -/
theorem descends_entry (orderly : supervisor.Orderly limits) (asked : supervisor.requested = true)
    (running : supervisor.result = none) {index : Nat} {task : EntryTask}
    (found : supervisor.entries[index]? = some task) (owing : 0 < task.owes) :
    ∃ label, supervisor.Descends label := by
  obtain ⟨limit, -, fits⟩ := orderly.fitting index task found
  rw [asked] at fits
  rcases fits.proceeds owing with ⟨result, rfl⟩ | ⟨next, less, unfailed, rfl | ⟨label, rfl⟩⟩
  · cases result with
    | ok =>
        have does : supervisor.advance (.join index) =
            { supervisor with entries := supervisor.entries.set index (.joined (.ok ())) } := by
          simp only [advance, join, found]
        refine ⟨.join index, descends_at asked running found does Nat.zero_lt_one ?_⟩
        exact fun _ => ⟨EntryTask.noConfusion, fun same => by cases same⟩
    | error error =>
        have does : supervisor.advance (.join index) = { supervisor with
            entries := (supervisor.entries.set index (.joined (.error error))).map EntryTask.abort
            result := some (.error error) } := by
          simp only [advance, join, found]
        refine ⟨.join index, ?_, ?_, fun well => ?_⟩
        · rw [step_of_running running, does, owes_of_running running]
          exact Nat.succ_pos _
        · rw [step_of_running running, does]
          exact asked
        · exact absurd rfl (well _ (List.mem_of_getElem? found) error).1
  · refine ⟨.bound index true, descends_at asked running found ?_ less unfailed⟩
    simp only [advance, modify_of_found found, asked]
  · refine ⟨.serve index label, descends_at asked running found ?_ less unfailed⟩
    simp only [advance, modify_of_found found]

/-- The other two tasks get on, and then nothing is left in the set. -/
theorem descends_tasks (orderly : supervisor.Orderly limits) (asked : supervisor.requested = true)
    (running : supervisor.result = none) (all : supervisor.entries.all EntryTask.isJoined = true) :
    ∃ label, supervisor.Descends label := by
  have counted := owes_of_running running
  cases reload : supervisor.reload with
  | waiting =>
      have does : supervisor.advance .exit = { supervisor with reload := .exited } := by
        simp only [advance, exit, reload, asked, and_self, if_true]
      have less : Reload.exited.owes supervisor.reloadJoined < Reload.waiting.owes supervisor.reloadJoined := by
        cases supervisor.reloadJoined <;> decide
      refine ⟨.exit, descends_of asked running does rfl rfl ?_⟩
      rw [counted, owes_of_running (by exact running), reload]
      dsimp only
      omega
  | loading rest =>
      cases rest with
      | nil => exact absurd reload orderly.loads
      | cons index rest =>
          have does : supervisor.advance .load = { supervisor with reload := .onward rest } := by
            simp only [advance, load, reload]
          have less : (Reload.onward rest).owes supervisor.reloadJoined <
              (Reload.loading (index :: rest)).owes supervisor.reloadJoined := by
            rw [Reload.owes_onward]
            exact Nat.lt_succ_self _
          refine ⟨.load, descends_of asked running does rfl rfl ?_⟩
          rw [counted, owes_of_running (by exact running), reload]
          dsimp only
          omega
  | exited =>
      cases joined : supervisor.reloadJoined with
      | false =>
          have does : supervisor.advance .joinReload = { supervisor with reloadJoined := true } := by
            simp only [advance, reload, if_true]
          refine ⟨.joinReload, descends_of asked running does rfl rfl ?_⟩
          rw [counted, owes_of_running (by exact running), reload, joined]
          exact Nat.lt_succ_self _
      | true =>
          cases signal : supervisor.signalJoined with
          | false =>
              have does : supervisor.advance .joinSignal = { supervisor with signalJoined := true } := by
                simp only [advance, asked, if_true]
              refine ⟨.joinSignal, descends_of asked running does rfl rfl ?_⟩
              rw [counted, owes_of_running (by exact running), signal]
              simp only [if_true, Bool.false_eq_true, if_false]
              omega
          | true =>
              have does : supervisor.advance .joinNone = { supervisor with result := some (.ok ()) } := by
                simp only [advance, joinNone, signal, joined, all, and_self, if_true]
              refine ⟨.joinNone, descends_of asked running does rfl rfl ?_⟩
              rw [counted]
              exact Nat.succ_pos _

/-- After the request there is always a step towards the end. -/
theorem descends (orderly : supervisor.Orderly limits) (asked : supervisor.requested = true)
    (running : supervisor.result = none) : ∃ label, supervisor.Descends label := by
  by_cases owing : ∃ (index : Nat) (task : EntryTask), supervisor.entries[index]? = some task ∧ 0 < task.owes
  · obtain ⟨index, task, found, owing⟩ := owing
    exact descends_entry orderly asked running found owing
  · have all : supervisor.entries.all EntryTask.isJoined = true := by
      rw [List.all_eq_true]
      intro task member
      obtain ⟨index, found⟩ := List.getElem?_of_mem member
      have held := orderly.held running task member
      cases task with
      | joined _ => rfl
      | aborted => exact absurd rfl held.1
      | binding _ | finished _ => exact absurd ⟨index, _, found, Nat.succ_pos _⟩ owing
      | serving server =>
          refine absurd ⟨index, _, found, ?_⟩ owing
          simp only [EntryTask.owes]
          split <;> decide
    exact descends_tasks orderly asked running all

end Descent

/-- Once a signal has come, and whatever else has happened, `run_with_config` can return
    after a number of steps that is known; and it can return without an error if none of its
    entries has failed. -/
theorem shutdown_can_finish (limits : List Nat) (labels : List SupervisorLabel)
    (asked : (labels.foldl step (start limits)).requested = true) :
    ∃ later : List SupervisorLabel, later.length ≤ (labels.foldl step (start limits)).owes ∧
      ((labels ++ later).foldl step (start limits)).result.isSome = true ∧
      ((labels.foldl step (start limits)).Unfailed →
        ((labels ++ later).foldl step (start limits)).result = some (.ok ())) := by
  simp only [List.foldl_append]
  have orderly := always_orderly limits labels labels (List.prefix_refl labels)
  generalize labels.foldl step (start limits) = supervisor at asked orderly ⊢
  induction steps : supervisor.owes using Nat.strong_induction_on generalizing supervisor with
  | _ steps ih =>
      cases running : supervisor.result with
      | some result =>
          refine ⟨[], Nat.zero_le _, by rw [List.foldl_nil, running]; rfl, fun unfailed => ?_⟩
          rw [List.foldl_nil, running]
          cases result with
          | ok => rfl
          | error error =>
              obtain ⟨member, -⟩ := orderly.failed error running
              exact absurd rfl (unfailed _ member error).2
      | none =>
          obtain ⟨label, less, still, unfailed⟩ := descends orderly asked running
          obtain ⟨later, few, done, well⟩ := ih _ (steps ▸ less) (supervisor.step label) still (orderly.step label) rfl
          refine ⟨label :: later, ?_, done, fun here => well (unfailed here)⟩
          rw [List.length_cons]
          omega

/-- The signal comes while one entry has a connection, the other is not bound yet, and a
    reload is under way. -/
def stopping : List SupervisorLabel :=
  [.bound 0 true, .serve 0 (.arrive .connection), .serve 0 (.poll .accept), .hangup, .signal]

theorem stopping_can_finish : ∃ later : List SupervisorLabel, later.length ≤ 13 ∧
    ((stopping ++ later).foldl step (start [2, 1])).result = some (.ok ()) := by
  have asked : (stopping.foldl step (start [2, 1])).requested = true := rfl
  obtain ⟨later, few, -, well⟩ := shutdown_can_finish [2, 1] stopping asked
  refine ⟨later, few.trans (by decide +kernel), well fun task member error => ?_⟩
  rcases List.mem_cons.mp member with rfl | member
  · exact ⟨EntryTask.noConfusion, EntryTask.noConfusion⟩
  · rw [List.mem_singleton.mp member]
    exact ⟨EntryTask.noConfusion, EntryTask.noConfusion⟩

end Supervisor

end AiProtect
