import AiProtect.Core.Audit
import AiProtect.Core.Metrics
import AiProtect.Policy.BlastRadius
import AiProtect.Policy.Config
import AiProtect.Proxy.BindState

/-! # The process

Everything that runs once `run_with_config` has set it up, except what a single connection
does with its bytes: the `[[proxy]]` entries with their policy lists, the connections they
accept, every `evaluate_all` of these connections, the background sync of each policy, and
the task that reloads the policy files.

Policies are numbered in the order they are built in, and a number stands for an `Arc`.
A frame counts as sent when its write begins. The ghosts are the questions each policy was
asked, which its slot has, and the calls by which frames were let through or rejected.
-/

namespace AiProtect

/-- One `[[proxy]]` entry; `policies` is what its watch carries, and `serving` says whether
    its accept loop still holds the receiving end. -/
structure Entry where
  file : String
  policies : List Nat
  serving : Bool
  deriving DecidableEq, Repr

/-- The task that reloads policy files, with the entries a hangup has yet to reach. -/
inductive Reload where
  | waiting
  | loading (rest : List Nat)
  | exited
  deriving DecidableEq, Repr

def Reload.onward : List Nat → Reload
  | [] => .waiting
  | rest => .loading rest

theorem Reload.onward_ne_exited (rest : List Nat) : Reload.onward rest ≠ .exited := by
  cases rest <;> exact Reload.noConfusion

/-- The watch still holds the entry's list: one of its two ends does. -/
def Reload.holds (reload : Reload) (entry : Entry) : Bool := entry.serving || !decide (reload = .exited)

/-- A frame that is being written, and the call that decided on it, if there was one. -/
structure Sent where
  bytes : Bytes
  call : Option Nat
  deriving DecidableEq, Repr

/-- A connection with the list of policies it was accepted under. `judging` is the call its
    client direction is in the middle of. -/
structure Connection where
  entry : Nat
  policies : List Nat
  bind : BindState
  judging : Option Nat
  toUpstream : List Sent
  toClient : List Sent
  closed : Bool

def Connection.accepted (entry : Nat) (policies : List Nat) (ip : String) : Connection where
  entry := entry
  policies := policies
  bind := .start ip
  judging := none
  toUpstream := []
  toClient := []
  closed := false

/-- One `evaluate_all`: the place in `policies` it asks next, its decision once it is made,
    and whether that has been logged and counted. -/
structure Judgement where
  connection : Nat
  frame : Bytes
  action : Action
  ctx : PolicyContext
  policies : List Nat
  next : Nat
  decision : Option Decision
  logged : Bool

structure Process where
  slots : List Slot
  strong : Nat → Nat
  tasks : List Nat
  entries : List Entry
  reload : Reload
  connections : List Connection
  calls : List Judgement
  trail : List (Nat × Option Audit.Line)
  decisions : DecisionCounts

inductive ProcessLabel where
  | hangup
  | load (contents : Option String) (db : Nat → ThresholdPolicy.StateDb)
  | exit
  | close (entry : Nat)
  | accept (entry : Nat) (ip : String)
  | receive (connection : Nat) (frame : Bytes)
  | advance (call : Nat) (now : Int)
  | log (call : Nat)
  | respond (connection : Nat) (frame : Bytes)
  | stop (connection : Nat)
  | tick (policy : Nat) (anchor : Anchor)
  | syncFailed (policy : Nat)
  | merge (policy : Nat) (rows : Snapshot) (now : Int)

/-- The slot of a policy that has just been built. -/
def Slot.built (policy : ThresholdPolicy) : Slot := ⟨policy, none, [], ⊥⟩

/-- Clone the `Arc`s of a list. -/
def retain (strong : Nat → Nat) (handles : List Nat) : Nat → Nat := fun handle => strong handle + handles.count handle

/-- Drop the `Arc`s of a list. -/
def release (strong : Nat → Nat) (handles : List Nat) : Nat → Nat := fun handle => strong handle - handles.count handle

namespace Process

/-- Policies are built, each with one `Arc` to it, and those with a store get a task. -/
def build (process : Process) (policies : List ThresholdPolicy) : Process × List Nat :=
  let handles := List.range' process.slots.length policies.length
  ({ process with
      slots := process.slots ++ policies.map Slot.built
      strong := retain process.strong handles
      tasks := process.tasks ++ handles.filter fun handle =>
        policies[handle - process.slots.length]?.any fun policy => policy.state.isSome }, handles)

def empty : Process where
  slots := []
  strong := fun _ => 0
  tasks := []
  entries := []
  reload := .waiting
  connections := []
  calls := []
  trail := []
  decisions := fun _ => 0

/-- One turn of the loop over the configured entries, whose file has been loaded. -/
def addEntry (process : Process) (config : String × List ThresholdPolicy) : Process :=
  let (next, policies) := process.build config.2
  { next with entries := process.entries ++ [⟨config.1, policies, true⟩] }

def start (configs : List (String × List ThresholdPolicy)) : Process := configs.foldl addEntry empty

/-- The rule for what holds once all entries are set up. -/
theorem start_rule {holds : Process → Prop} (nothing : holds empty)
    (added : ∀ process config, holds process → holds (process.addEntry config))
    (configs : List (String × List ThresholdPolicy)) : holds (start configs) :=
  List.foldlRecOn configs addEntry nothing fun process here config _ => added process config here

/-- Nothing has happened when the process starts. -/
theorem start_quiet (configs : List (String × List ThresholdPolicy)) :
    (start configs).connections = [] ∧ (start configs).calls = [] ∧ (start configs).trail = [] ∧
      (start configs).decisions = (fun _ => 0) ∧ (start configs).reload = .waiting :=
  @start_rule (fun process => process.connections = [] ∧ process.calls = [] ∧ process.trail = [] ∧
    process.decisions = (fun _ => 0) ∧ process.reload = .waiting) ⟨rfl, rfl, rfl, rfl, rfl⟩
    (fun _ _ quiet => quiet) configs

def hangup (process : Process) : Process :=
  match process.reload with
  | .waiting => { process with reload := .onward (List.range process.entries.length) }
  | _ => process

/-- `tx.send`: the list replaces the one of the entry, unless nothing receives it any more. -/
def send (process : Process) (index : Nat) (entry : Entry) (policies : List ThresholdPolicy) : Process :=
  let (next, handles) := process.build policies
  if entry.serving = true then
    { next with
      strong := release next.strong entry.policies
      entries := process.entries.set index { entry with policies := handles } }
  else { next with strong := release next.strong handles }

/-- The next entry of a reload. A file that does not load leaves the entry as it is. -/
def load (parse : String → Option (List PolicyEntry)) (process : Process) (contents : Option String)
    (db : Nat → ThresholdPolicy.StateDb) : Process :=
  match process.reload with
  | .loading (index :: rest) =>
      match process.entries[index]? with
      | none => { process with reload := .onward rest }
      | some entry =>
          match loadPolicies parse entry.file contents db with
          | .error _ => { process with reload := .onward rest }
          | .ok policies => { process.send index entry policies with reload := .onward rest }
  | _ => process

/-- Shutdown has been requested: the task ends, and the sending ends with it. -/
def exit (process : Process) : Process :=
  match process.reload with
  | .waiting => { process with
      reload := .exited
      strong := release process.strong
        ((process.entries.filter fun entry => !entry.serving).flatMap Entry.policies) }
  | _ => process

/-- The accept loop of an entry ends, and drops the receiving end. -/
def close (process : Process) (index : Nat) : Process :=
  match process.entries[index]? with
  | none => process
  | some entry =>
      if entry.serving = true then
        { process with
          entries := process.entries.set index { entry with serving := false }
          strong := if process.reload = .exited then release process.strong entry.policies else process.strong }
      else process

def accept (process : Process) (index : Nat) (ip : String) : Process :=
  match process.entries[index]? with
  | none => process
  | some entry =>
      if entry.serving = true then
        { process with
          connections := process.connections ++ [.accepted index entry.policies ip]
          strong := retain process.strong entry.policies }
      else process

/-- A connection's task ends, for whatever reason, and drops its policies. -/
def drop (process : Process) (index : Nat) (connection : Connection) : Process :=
  { process with
    connections := process.connections.set index { connection with judging := none, closed := true }
    strong := release process.strong connection.policies }

variable (connector : LdapConnector)

/-- `handle_client_frame`, up to the first policy. -/
def receive (process : Process) (index : Nat) (frame : Bytes) : Process :=
  match process.connections[index]? with
  | none => process
  | some connection =>
      if connection.closed = true ∨ connection.judging.isSome = true then process
      else
        match connector.bindRequest frame with
        | .error _ => process.drop index connection
        | .ok claim =>
            let bind := connection.bind.stage claim
            match connector.decode frame with
            | .error _ => process.drop index { connection with bind }
            | .ok none => { process with
                connections := process.connections.set index
                  { connection with bind, toUpstream := connection.toUpstream ++ [⟨frame, none⟩] } }
            | .ok (some action) => { process with
                connections := process.connections.set index
                  { connection with bind, judging := some process.calls.length }
                calls := process.calls ++
                  [⟨index, frame, action, ⟨bind.identity⟩, connection.policies, 0, none, false⟩] }

/-- One turn of the loop in `evaluate_all`. -/
def advance (process : Process) (k : Nat) (now : Int) : Process :=
  match process.calls[k]? with
  | none => process
  | some call =>
      match call.decision, call.policies[call.next]? with
      | some _, _ => process
      | none, none => { process with calls := process.calls.set k { call with decision := some .allow } }
      | none, some handle =>
          match process.slots[handle]? with
          | none => process
          | some slot =>
              match slot.evaluate k call.action call.ctx now with
              | (.allow, asked) => { process with
                  slots := process.slots.set handle asked
                  calls := process.calls.set k { call with next := call.next + 1 } }
              | (.block reason, asked) => { process with
                  slots := process.slots.set handle asked
                  calls := process.calls.set k { call with decision := some (.block reason) } }

/-- `handle_client_frame`, from the decision on: it is logged and counted, and then the
    frame or its rejection is written. -/
def log (process : Process) (k : Nat) : Process :=
  match process.calls[k]? with
  | none => process
  | some call =>
      match call.decision, call.logged, process.connections[call.connection]? with
      | some decision, false, some connection =>
          let next := { process with
            calls := process.calls.set k { call with logged := true }
            trail := process.trail ++ [(k, Audit.logDecision call.ctx.identity call.action decision)]
            decisions := recordDecision process.decisions call.action decision }
          match decision with
          | .allow => { next with
              connections := process.connections.set call.connection
                { connection with
                  judging := none, toUpstream := connection.toUpstream ++ [⟨call.frame, some k⟩] } }
          | .block reason =>
              match connector.buildRejection call.frame reason with
              | .error _ => next.drop call.connection connection
              | .ok rejection => { next with
                  connections := process.connections.set call.connection
                    { connection with
                      judging := none, toClient := connection.toClient ++ [⟨rejection, some k⟩] } }
      | _, _, _ => process

/-- The next frame of the upstream direction. The two directions share a task, so it is not
    polled in the middle of a call. -/
def respond (process : Process) (index : Nat) (frame : Bytes) : Process :=
  match process.connections[index]? with
  | none => process
  | some connection =>
      if connection.closed = true ∨ connection.judging.isSome = true then process
      else
        match resolvePendingBind connector connection.bind frame with
        | .error _ => process.drop index connection
        | .ok bind => { process with
            connections := process.connections.set index
              { connection with bind, toClient := connection.toClient ++ [⟨frame, none⟩] } }

/-- The end of a stream, an I/O error, a timeout or an abort. -/
def stop (process : Process) (index : Nat) : Process :=
  match process.connections[index]? with
  | none => process
  | some connection =>
      if connection.closed = true ∨ connection.judging.isSome = true then process
      else process.drop index connection

/-- A tick of the background task of a policy: it gets hold of the policy and begins a sync,
    or finds that there is none any more and ends. -/
def tick (process : Process) (handle : Nat) (anchor : Anchor) : Process :=
  match process.slots[handle]? with
  | none => process
  | some slot =>
      if handle ∈ process.tasks ∧ slot.syncing = none then
        if process.strong handle = 0 then { process with tasks := process.tasks.erase handle }
        else { process with
          slots := process.slots.set handle (slot.drain anchor)
          strong := retain process.strong [handle] }
      else process

/-- The end of a sync; the task drops the policy again. -/
def finishSync (process : Process) (handle : Nat) (finish : Slot → Slot) : Process :=
  match process.slots[handle]? with
  | none => process
  | some slot =>
      if slot.syncing.isSome = true then { process with
        slots := process.slots.set handle (finish slot)
        strong := release process.strong [handle] }
      else process

def step (parse : String → Option (List PolicyEntry)) (process : Process) : ProcessLabel → Process
  | .hangup => process.hangup
  | .load contents db => process.load parse contents db
  | .exit => process.exit
  | .close entry => process.close entry
  | .accept entry ip => process.accept entry ip
  | .receive connection frame => process.receive connector connection frame
  | .advance call now => process.advance call now
  | .log call => process.log connector call
  | .respond connection frame => process.respond connector connection frame
  | .stop connection => process.stop connection
  | .tick handle anchor => process.tick handle anchor
  | .syncFailed handle => process.finishSync handle Slot.syncFailed
  | .merge handle rows now => process.finishSync handle (Slot.merge · rows now)

section Changes

variable (parse : String → Option (List PolicyEntry))

/-- Everything a step can come to, with what it found. -/
inductive Change (process : Process) : ProcessLabel → Process → Prop where
  | idle {label : ProcessLabel} : Change process label process
  | turned {label : ProcessLabel} {reload : Reload} (live : process.reload ≠ .exited) (again : reload ≠ .exited) :
      Change process label { process with reload }
  | replaced {contents : Option String} {db : Nat → ThresholdPolicy.StateDb} {index : Nat} {rest : List Nat}
      {entry : Entry} {policies : List ThresholdPolicy} (loading : process.reload = .loading (index :: rest))
      (found : process.entries[index]? = some entry)
      (loaded : loadPolicies parse entry.file contents db = .ok policies) (serving : entry.serving = true) :
      Change process (.load contents db) { (process.build policies).1 with
        strong := release (retain process.strong (process.build policies).2) entry.policies
        entries := process.entries.set index { entry with policies := (process.build policies).2 }
        reload := .onward rest }
  | discarded {contents : Option String} {db : Nat → ThresholdPolicy.StateDb} {index : Nat} {rest : List Nat}
      {entry : Entry} {policies : List ThresholdPolicy} (loading : process.reload = .loading (index :: rest))
      (found : process.entries[index]? = some entry)
      (loaded : loadPolicies parse entry.file contents db = .ok policies) (serving : entry.serving = false) :
      Change process (.load contents db) { (process.build policies).1 with
        strong := release (retain process.strong (process.build policies).2) (process.build policies).2
        reload := .onward rest }
  | exited (waiting : process.reload = .waiting) :
      Change process .exit { process with
        reload := .exited
        strong := release process.strong
          ((process.entries.filter fun entry => !entry.serving).flatMap Entry.policies) }
  | closed {index : Nat} {entry : Entry} (found : process.entries[index]? = some entry)
      (serving : entry.serving = true) :
      Change process (.close index) { process with
        entries := process.entries.set index { entry with serving := false }
        strong := if process.reload = .exited then release process.strong entry.policies else process.strong }
  | accepted {index : Nat} {ip : String} {entry : Entry} (found : process.entries[index]? = some entry)
      (serving : entry.serving = true) :
      Change process (.accept index ip) { process with
        connections := process.connections ++ [.accepted index entry.policies ip]
        strong := retain process.strong entry.policies }
  | dropped {label : ProcessLabel} {index : Nat} {connection : Connection} (bind : BindState)
      (found : process.connections[index]? = some connection) (going : connection.closed = false)
      (free : connection.judging = none) :
      Change process label (process.drop index { connection with bind })
  | spoke {label : ProcessLabel} {index : Nat} {connection next : Connection}
      (found : process.connections[index]? = some connection) (going : connection.closed = false)
      (free : connection.judging = none) (same : next = { connection with
        bind := next.bind, toUpstream := next.toUpstream, toClient := next.toClient })
      (upstream : next.toUpstream = connection.toUpstream ∨ ∃ frame, connector.decode frame = .ok none ∧
        next.toUpstream = connection.toUpstream ++ [⟨frame, none⟩])
      (client : next.toClient = connection.toClient ∨ ∃ frame,
        next.toClient = connection.toClient ++ [⟨frame, none⟩]) :
      Change process label { process with connections := process.connections.set index next }
  | opened {index : Nat} {frame : Bytes} {connection : Connection} {action : Action} (bind : BindState)
      (found : process.connections[index]? = some connection) (going : connection.closed = false)
      (free : connection.judging = none) (decoded : connector.decode frame = .ok (some action)) :
      Change process (.receive index frame) { process with
        connections := process.connections.set index
          { connection with bind, judging := some process.calls.length }
        calls := process.calls ++
          [⟨index, frame, action, ⟨bind.identity⟩, connection.policies, 0, none, false⟩] }
  | returned {k : Nat} {now : Int} {call : Judgement} (found : process.calls[k]? = some call)
      (undecided : call.decision = none) (exhausted : call.policies[call.next]? = none) :
      Change process (.advance k now) { process with
        calls := process.calls.set k { call with decision := some .allow } }
  | passed {k handle : Nat} {now : Int} {call : Judgement} {slot after : Slot}
      (found : process.calls[k]? = some call) (undecided : call.decision = none)
      (asked : call.policies[call.next]? = some handle) (there : process.slots[handle]? = some slot)
      (verdict : slot.evaluate k call.action call.ctx now = (.allow, after)) :
      Change process (.advance k now) { process with
        slots := process.slots.set handle after
        calls := process.calls.set k { call with next := call.next + 1 } }
  | blocked {k handle : Nat} {now : Int} {call : Judgement} {slot after : Slot} {reason : String}
      (found : process.calls[k]? = some call) (undecided : call.decision = none)
      (asked : call.policies[call.next]? = some handle) (there : process.slots[handle]? = some slot)
      (verdict : slot.evaluate k call.action call.ctx now = (.block reason, after)) :
      Change process (.advance k now) { process with
        slots := process.slots.set handle after
        calls := process.calls.set k { call with decision := some (.block reason) } }
  | logged {k : Nat} {call : Judgement} {decision : Decision} {connection next : Connection}
      (found : process.calls[k]? = some call) (decided : call.decision = some decision)
      (unlogged : call.logged = false) (there : process.connections[call.connection]? = some connection)
      (same : next = { connection with
        judging := none, toUpstream := next.toUpstream, toClient := next.toClient })
      (sent : (decision = .allow ∧ next.toUpstream = connection.toUpstream ++ [⟨call.frame, some k⟩] ∧
          next.toClient = connection.toClient) ∨
        ∃ reason rejection, decision = .block reason ∧ connector.buildRejection call.frame reason = .ok rejection ∧
          next.toUpstream = connection.toUpstream ∧ next.toClient = connection.toClient ++ [⟨rejection, some k⟩]) :
      Change process (.log k) { process with
        calls := process.calls.set k { call with logged := true }
        trail := process.trail ++ [(k, Audit.logDecision call.ctx.identity call.action decision)]
        decisions := recordDecision process.decisions call.action decision
        connections := process.connections.set call.connection next }
  | unanswerable {k : Nat} {call : Judgement} {reason : String} {connection : Connection}
      (found : process.calls[k]? = some call) (decided : call.decision = some (.block reason))
      (unlogged : call.logged = false) (there : process.connections[call.connection]? = some connection) :
      Change process (.log k) (drop { process with
        calls := process.calls.set k { call with logged := true }
        trail := process.trail ++ [(k, Audit.logDecision call.ctx.identity call.action (.block reason))]
        decisions := recordDecision process.decisions call.action (.block reason) } call.connection connection)
  | taskEnded {handle : Nat} {anchor : Anchor} {slot : Slot} (there : process.slots[handle]? = some slot)
      (quiet : slot.syncing = none) (gone : process.strong handle = 0) :
      Change process (.tick handle anchor) { process with tasks := process.tasks.erase handle }
  | drained {handle : Nat} {anchor : Anchor} {slot : Slot} (there : process.slots[handle]? = some slot)
      (task : handle ∈ process.tasks) (quiet : slot.syncing = none) (held : process.strong handle ≠ 0) :
      Change process (.tick handle anchor) { process with
        slots := process.slots.set handle (slot.drain anchor)
        strong := retain process.strong [handle] }
  | failed {handle : Nat} {slot : Slot} (there : process.slots[handle]? = some slot)
      (syncing : slot.syncing.isSome = true) :
      Change process (.syncFailed handle) { process with
        slots := process.slots.set handle slot.syncFailed
        strong := release process.strong [handle] }
  | merged {handle : Nat} {rows : Snapshot} {now : Int} {slot : Slot}
      (there : process.slots[handle]? = some slot) (syncing : slot.syncing.isSome = true) :
      Change process (.merge handle rows now) { process with
        slots := process.slots.set handle (slot.merge rows now)
        strong := release process.strong [handle] }

variable {connector parse} (process : Process)

theorem change_load (contents : Option String) (db : Nat → ThresholdPolicy.StateDb) :
    Change connector parse process (.load contents db) (process.load parse contents db) := by
  cases reload : process.reload with
  | waiting | exited => simpa only [load, reload] using Change.idle
  | loading rest =>
      have live : process.reload ≠ .exited := by
        rw [reload]
        exact Reload.noConfusion
      cases rest with
      | nil => simpa only [load, reload] using Change.idle
      | cons index rest =>
          cases found : process.entries[index]? with
          | none =>
              simp only [load, reload, found]
              exact .turned live (Reload.onward_ne_exited rest)
          | some entry =>
              cases loaded : loadPolicies parse entry.file contents db with
              | error _ =>
                  simp only [load, reload, found, loaded]
                  exact .turned live (Reload.onward_ne_exited rest)
              | ok policies =>
                  simp only [load, reload, found, loaded]
                  by_cases serving : entry.serving = true
                  · simp only [send, if_pos serving]
                    exact .replaced reload found loaded serving
                  · simp only [send, if_neg serving]
                    exact .discarded reload found loaded (Bool.eq_false_iff.mpr serving)

theorem change_receive (index : Nat) (frame : Bytes) :
    Change connector parse process (.receive index frame) (process.receive connector index frame) := by
  cases found : process.connections[index]? with
  | none => simpa only [receive, found] using Change.idle
  | some connection =>
      simp only [receive, found]
      split
      · exact .idle
      · rename_i ready
        simp only [not_or, Bool.not_eq_true, Option.isSome_eq_false_iff, Option.isNone_iff_eq_none] at ready
        obtain ⟨going, free⟩ := ready
        split
        · exact .dropped connection.bind found going free
        · split
          · exact .dropped _ found going free
          · rename_i decoded
            exact .spoke found going free rfl (.inr ⟨frame, decoded, rfl⟩) (.inl rfl)
          · rename_i decoded
            exact .opened _ found going free decoded

theorem change_advance (k : Nat) (now : Int) :
    Change connector parse process (.advance k now) (process.advance k now) := by
  cases found : process.calls[k]? with
  | none => simpa only [advance, found] using Change.idle
  | some call =>
      cases undecided : call.decision with
      | some _ => simpa only [advance, found, undecided] using Change.idle
      | none =>
          cases asked : call.policies[call.next]? with
          | none => simpa only [advance, found, undecided, asked] using Change.returned found undecided asked
          | some handle =>
              cases there : process.slots[handle]? with
              | none => simpa only [advance, found, undecided, asked, there] using Change.idle
              | some slot =>
                  rcases verdict : slot.evaluate k call.action call.ctx now with ⟨_ | reason, after⟩
                  · simpa only [advance, found, undecided, asked, there, verdict] using
                      Change.passed found undecided asked there verdict
                  · simpa only [advance, found, undecided, asked, there, verdict] using
                      Change.blocked found undecided asked there verdict

theorem change_log (k : Nat) : Change connector parse process (.log k) (process.log connector k) := by
  cases found : process.calls[k]? with
  | none => simpa only [log, found] using Change.idle
  | some call =>
      simp only [log, found]
      split
      · rename_i decision connection decided unlogged there
        cases decision with
        | allow => exact .logged found decided unlogged there rfl (.inl ⟨rfl, rfl, rfl⟩)
        | block reason =>
            cases built : connector.buildRejection call.frame reason with
            | error _ =>
                simp only [built]
                exact .unanswerable found decided unlogged there
            | ok rejection =>
                simp only [built]
                exact .logged found decided unlogged there rfl (.inr ⟨reason, rejection, rfl, built, rfl, rfl⟩)
      · exact .idle

theorem change_respond (index : Nat) (frame : Bytes) :
    Change connector parse process (.respond index frame) (process.respond connector index frame) := by
  cases found : process.connections[index]? with
  | none => simpa only [respond, found] using Change.idle
  | some connection =>
      simp only [respond, found]
      split
      · exact .idle
      · rename_i ready
        simp only [not_or, Bool.not_eq_true, Option.isSome_eq_false_iff, Option.isNone_iff_eq_none] at ready
        obtain ⟨going, free⟩ := ready
        split
        · exact .dropped connection.bind found going free
        · exact .spoke found going free rfl (.inl rfl) (.inr ⟨frame, rfl⟩)

theorem change_tick (handle : Nat) (anchor : Anchor) :
    Change connector parse process (.tick handle anchor) (process.tick handle anchor) := by
  cases there : process.slots[handle]? with
  | none => simpa only [tick, there] using Change.idle
  | some slot =>
      simp only [tick, there]
      split
      · rename_i ready
        split
        · rename_i gone
          exact .taskEnded there ready.2 gone
        · rename_i held
          exact .drained there ready.1 ready.2 held
      · exact .idle

theorem change (label : ProcessLabel) :
    Change connector parse process label (process.step connector parse label) := by
  cases label with
  | hangup =>
      simp only [step, hangup]
      split
      · rename_i waiting
        refine .turned ?_ (Reload.onward_ne_exited _)
        rw [waiting]
        exact Reload.noConfusion
      · exact .idle
  | load contents db => exact process.change_load contents db
  | exit =>
      simp only [step, exit]
      split
      · rename_i waiting
        exact .exited waiting
      · exact .idle
  | close index =>
      simp only [step, close]
      split
      · exact .idle
      · rename_i entry found
        split
        · rename_i serving
          exact .closed found serving
        · exact .idle
  | accept index ip =>
      simp only [step, accept]
      split
      · exact .idle
      · rename_i entry found
        split
        · rename_i serving
          exact .accepted found serving
        · exact .idle
  | receive index frame => exact process.change_receive index frame
  | advance k now => exact process.change_advance k now
  | log k => exact process.change_log k
  | respond index frame => exact process.change_respond index frame
  | stop index =>
      simp only [step, stop]
      split
      · exact .idle
      · rename_i connection found
        split
        · exact .idle
        · rename_i ready
          simp only [not_or, Bool.not_eq_true, Option.isSome_eq_false_iff, Option.isNone_iff_eq_none] at ready
          exact .dropped connection.bind found ready.1 ready.2
  | tick handle anchor => exact process.change_tick handle anchor
  | syncFailed handle =>
      simp only [step, finishSync]
      split
      · exact .idle
      · rename_i slot there
        split
        · rename_i syncing
          exact .failed there syncing
        · exact .idle
  | merge handle rows now =>
      simp only [step, finishSync]
      split
      · exact .idle
      · rename_i slot there
        split
        · rename_i syncing
          exact .merged there syncing
        · exact .idle

end Changes

end Process

end AiProtect
