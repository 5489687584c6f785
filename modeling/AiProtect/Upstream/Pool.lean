import AiProtect.Core.Address
import AiProtect.Core.Clock
import AiProtect.Lib.Ordering

/-! # The upstream pool

The targets that one connector balances its connections across: in what order they are
tried, which of them are left out for a while after a failure, and how many connections
each of them has. Every reading of the clock is an argument, since each target is looked
at by a reading of its own.
-/

namespace AiProtect

inductive LoadBalanceStrategy where
  | roundRobin
  | random
  | leastConnections
  deriving DecidableEq, Repr

/-- `downUntil` is the end of a cooldown; there is none for a target that is healthy. -/
structure Target where
  addr : SocketAddr
  activeConnections : Nat
  downUntil : Option Int
  deriving DecidableEq

structure Candidate where
  index : Nat
  addr : SocketAddr
  deriving DecidableEq

/-- A pool has a target: `UpstreamPool::new` panics without one. -/
structure UpstreamPool where
  targets : List Target
  nonempty : targets ≠ []
  strategy : LoadBalanceStrategy
  cooldown : Nat
  roundRobinCounter : Nat

/-- What `shuffle` may do to a list. -/
structure Shuffle where
  apply : List Nat → List Nat
  perm : ∀ list, (apply list).Perm list

def Target.isHealthy (target : Target) (now : Int) : Bool :=
  match target.downUntil with
  | none => true
  | some deadline => decide (deadline ≤ now)

namespace UpstreamPool

def new (addrs : List SocketAddr) (nonempty : addrs ≠ []) (strategy : LoadBalanceStrategy) (cooldown : Nat) :
    UpstreamPool where
  targets := addrs.map fun addr => ⟨addr, 0, none⟩
  nonempty := fun empty => nonempty (List.map_eq_nil_iff.mp empty)
  strategy := strategy
  cooldown := cooldown
  roundRobinCounter := 0

variable (pool : UpstreamPool)

def isHealthy (index : Nat) (now : Int) : Bool := pool.targets[index]?.any fun target => target.isHealthy now

def activeConnections (index : Nat) : Nat := (pool.targets[index]?.map Target.activeConnections).getD 0

/-- The indices that are healthy when they are looked at, in configuration order. -/
def healthy (clock : Nat → Int) : List Nat :=
  (List.range pool.targets.length).filter fun index => pool.isHealthy index (clock index)

def down (clock : Nat → Int) : List Nat :=
  (List.range pool.targets.length).filter fun index => !pool.isHealthy index (clock index)

/-- The healthy indices in the order of the strategy. -/
def ordered (clock : Nat → Int) (shuffle : Shuffle) : List Nat :=
  match pool.strategy with
  | .roundRobin => (pool.healthy clock).rotate (pool.roundRobinCounter % (pool.healthy clock).length)
  | .random => shuffle.apply (pool.healthy clock)
  | .leastConnections =>
      (pool.healthy clock).mergeSort fun index other =>
        decide (pool.activeConnections index ≤ pool.activeConnections other)

def candidates (clock : Nat → Int) (shuffle : Shuffle) : List Candidate :=
  (pool.ordered clock shuffle ++ pool.down clock).filterMap fun index =>
    pool.targets[index]?.map fun target => ⟨index, target.addr⟩

/-- `candidates` counts its calls, if it has healthy targets to take turns. -/
def afterCandidates (clock : Nat → Int) : UpstreamPool :=
  if pool.strategy = .roundRobin ∧ pool.healthy clock ≠ [] then
    { pool with roundRobinCounter := (pool.roundRobinCounter + 1) % 2 ^ 64 }
  else pool

/-- Change one target. -/
def modify (index : Nat) (change : Target → Target) : UpstreamPool :=
  { pool with
    targets := pool.targets.modify index change
    nonempty := fun empty => pool.nonempty (List.modify_eq_nil_iff.mp empty) }

/-- Nothing if the end of the cooldown is no `Instant`: the addition then panics. -/
def markFailed (index : Nat) (now : Int) : Option UpstreamPool :=
  (checkedAdd now pool.cooldown).map fun deadline =>
    pool.modify index fun target => { target with downUntil := some deadline }

/-- The pool after `mark_connected`; the guard it returns is kept by the caller. -/
def markConnected (index : Nat) : UpstreamPool :=
  pool.modify index fun target =>
    { target with downUntil := none, activeConnections := (target.activeConnections + 1) % 2 ^ 64 }

/-- The drop of a guard. -/
def dropGuard (index : Nat) : UpstreamPool :=
  pool.modify index fun target =>
    { target with activeConnections := (target.activeConnections + (2 ^ 64 - 1)) % 2 ^ 64 }

end UpstreamPool

/-- A pool in use, with the target of each live guard. -/
structure PoolState where
  pool : UpstreamPool
  guards : List Nat

/-- What is done with a pool: its candidates are asked for, a dial to a target succeeds or
    fails, or the guard at some position is dropped. -/
inductive PoolLabel where
  | candidates (clock : Nat → Int) (shuffle : Shuffle)
  | connected (index : Nat)
  | failed (index : Nat) (now : Int)
  | dropped (position : Nat)

/-- A call of `candidates`, with the targets it found healthy. -/
structure CandidatesCall where
  healthy : List Nat
  candidates : List Candidate

namespace PoolState

/-- Every guard holds a reference to the pool, and there are at most `isize::MAX` of them. -/
def step (state : PoolState) : PoolLabel → PoolState
  | .candidates clock _ => { state with pool := state.pool.afterCandidates clock }
  | .connected index =>
      if index < state.pool.targets.length ∧ state.guards.length < 2 ^ 63 then
        ⟨state.pool.markConnected index, state.guards ++ [index]⟩
      else state
  | .failed index now =>
      match state.pool.markFailed index now with
      | some pool => { state with pool }
      | none => state
  | .dropped position =>
      match state.guards[position]? with
      | some index => ⟨state.pool.dropGuard index, state.guards.eraseIdx position⟩
      | none => state

def call (state : PoolState) : PoolLabel → Option CandidatesCall
  | .candidates clock shuffle => some ⟨state.pool.healthy clock, state.pool.candidates clock shuffle⟩
  | _ => none

/-- The calls of `candidates` in a run. -/
def calls : PoolState → List PoolLabel → List CandidatesCall
  | _, [] => []
  | state, label :: labels => (state.call label).toList ++ calls (state.step label) labels

end PoolState

namespace UpstreamPool

variable {pool : UpstreamPool} {clock : Nat → Int} {shuffle : Shuffle}

theorem targets_modify (index : Nat) (change : Target → Target) :
    (pool.modify index change).targets[index]? = (pool.targets[index]?).map change :=
  List.getElem?_modify_eq change index pool.targets

theorem targets_modify_of_ne {index other : Nat} (different : index ≠ other) (change : Target → Target) :
    (pool.modify index change).targets[other]? = pool.targets[other]? :=
  List.getElem?_modify_ne change pool.targets different

/-- A call of `candidates` moves the counter at most. -/
theorem afterCandidates_config (pool : UpstreamPool) (clock : Nat → Int) :
    (pool.afterCandidates clock).strategy = pool.strategy ∧ (pool.afterCandidates clock).cooldown = pool.cooldown ∧
      (pool.afterCandidates clock).targets = pool.targets := by
  unfold afterCandidates
  split
  · exact ⟨rfl, rfl, rfl⟩
  · exact ⟨rfl, rfl, rfl⟩

theorem ordered_perm : (pool.ordered clock shuffle).Perm (pool.healthy clock) := by
  unfold ordered
  split
  · exact List.rotate_perm _ _
  · exact shuffle.perm _
  · exact List.mergeSort_perm _ _

/-- Healthy or down, every index is one of the two. -/
theorem ordered_append_down_perm :
    (pool.ordered clock shuffle ++ pool.down clock).Perm (List.range pool.targets.length) :=
  (ordered_perm.append_right _).trans (List.filter_append_perm _ _)

/-- No index is dropped on the way to its address. -/
theorem map_index_candidates :
    (pool.candidates clock shuffle).map Candidate.index = pool.ordered clock shuffle ++ pool.down clock := by
  have inside : ∀ index ∈ pool.ordered clock shuffle ++ pool.down clock, index < pool.targets.length := by
    intro index member
    exact List.mem_range.mp (ordered_append_down_perm.subset member)
  unfold candidates
  generalize pool.ordered clock shuffle ++ pool.down clock = indices at inside ⊢
  induction indices with
  | nil => rfl
  | cons index indices ih =>
      have here := inside index List.mem_cons_self
      rw [List.filterMap_cons, List.getElem?_eq_getElem here, Option.map_some]
      exact congrArg (index :: ·) (ih fun other member => inside other (List.mem_cons_of_mem _ member))

theorem addr_of_candidate {candidate : Candidate} (member : candidate ∈ pool.candidates clock shuffle) :
    (pool.targets[candidate.index]?).map Target.addr = some candidate.addr := by
  obtain ⟨index, -, found⟩ := List.mem_filterMap.mp member
  obtain ⟨target, known, rfl⟩ := Option.map_eq_some_iff.mp found
  rw [known]
  rfl

theorem healthy_of_ordered {index : Nat} (member : index ∈ pool.ordered clock shuffle) :
    pool.isHealthy index (clock index) = true :=
  (List.mem_filter.mp (ordered_perm.subset member)).2

end UpstreamPool

namespace PoolState

variable {state : PoolState}

/-- What a step does to the pool, if it is no call of `candidates`: it changes one target
    at most. -/
theorem step_pool {label : PoolLabel} (none : state.call label = none) :
    (state.step label).pool = state.pool ∨
      ∃ index change, (state.step label).pool = state.pool.modify index change := by
  cases label with
  | candidates clock shuffle => cases none
  | connected index =>
      simp only [step]
      split
      · exact .inr ⟨index, _, rfl⟩
      · exact .inl rfl
  | failed index now =>
      simp only [step, UpstreamPool.markFailed]
      cases checkedAdd now state.pool.cooldown with
      | none => exact .inl rfl
      | some deadline => exact .inr ⟨index, _, rfl⟩
  | dropped position =>
      simp only [step]
      split
      · rename_i index _
        exact .inr ⟨index, _, rfl⟩
      · exact .inl rfl

/-- The configuration of a pool never changes. -/
theorem step_config (label : PoolLabel) :
    (state.step label).pool.strategy = state.pool.strategy ∧
      (state.step label).pool.cooldown = state.pool.cooldown := by
  cases called : state.call label with
  | none =>
      rcases step_pool called with same | ⟨index, change, changed⟩
      · rw [same]
        exact ⟨rfl, rfl⟩
      · rw [changed]
        exact ⟨rfl, rfl⟩
  | some call =>
      cases label with
      | candidates clock shuffle =>
          obtain ⟨strategy, cooldown, -⟩ := state.pool.afterCandidates_config clock
          exact ⟨strategy, cooldown⟩
      | _ => cases called

/-- Only a call of `candidates` moves the counter. -/
theorem step_counter {label : PoolLabel} (none : state.call label = none) :
    (state.step label).pool.roundRobinCounter = state.pool.roundRobinCounter := by
  rcases step_pool none with same | ⟨index, change, changed⟩
  · rw [same]
  · rw [changed]
    rfl

/-- In round robin, a call takes the next turn, and the healthy targets come first. -/
theorem call_roundRobin (turns : state.pool.strategy = .roundRobin) {label : PoolLabel} {call : CandidatesCall}
    (called : state.call label = some call) :
    (call.candidates.map Candidate.index).take call.healthy.length =
      call.healthy.rotate state.pool.roundRobinCounter := by
  cases label with
  | candidates clock shuffle =>
      cases called
      have order : state.pool.ordered clock shuffle =
          (state.pool.healthy clock).rotate state.pool.roundRobinCounter := by
        simp only [UpstreamPool.ordered, turns, List.rotate_mod]
      dsimp only
      rw [UpstreamPool.map_index_candidates, order, List.take_left' (List.length_rotate _ _)]
  | _ => cases called

theorem step_counter_of_call (turns : state.pool.strategy = .roundRobin) {label : PoolLabel} {call : CandidatesCall}
    (called : state.call label = some call) (some : call.healthy ≠ []) :
    (state.step label).pool.roundRobinCounter = (state.pool.roundRobinCounter + 1) % 2 ^ 64 := by
  cases label with
  | candidates clock shuffle =>
      cases called
      simp only [step, UpstreamPool.afterCandidates, if_pos (And.intro turns some)]
  | _ => cases called

/-- The calls of a run take turns, one after the other. -/
theorem calls_take_turns {healthy : List Nat} (some : healthy ≠ []) (labels : List PoolLabel)
    (turns : state.pool.strategy = .roundRobin) (same : ∀ call ∈ state.calls labels, call.healthy = healthy)
    (unwrapped : state.pool.roundRobinCounter + (state.calls labels).length ≤ 2 ^ 64) :
    ∀ (count : Nat) (call : CandidatesCall), (state.calls labels)[count]? = .some call →
      (call.candidates.map Candidate.index).take healthy.length =
        healthy.rotate (state.pool.roundRobinCounter + count) := by
  induction labels generalizing state with
  | nil =>
      intro count call found
      cases found
  | cons label labels ih =>
      have turnsNext : (state.step label).pool.strategy = .roundRobin := by rw [(step_config label).1, turns]
      cases called : state.call label with
      | none =>
          simp only [calls, called, Option.toList_none, List.nil_append] at same unwrapped ⊢
          rw [← step_counter called] at unwrapped ⊢
          exact ih turnsNext same unwrapped
      | some first =>
          simp only [calls, called, Option.toList_some, List.singleton_append, List.length_cons] at same unwrapped ⊢
          have firstSame : first.healthy = healthy := same first List.mem_cons_self
          intro count call found
          cases count with
          | zero =>
              cases found
              rw [← firstSame]
              exact call_roundRobin turns called
          | succ count =>
              rw [List.getElem?_cons_succ] at found
              have later := (List.getElem?_eq_some_iff.mp found).1
              have counter : (state.step label).pool.roundRobinCounter = state.pool.roundRobinCounter + 1 := by
                rw [step_counter_of_call turns called (firstSame ▸ some), Nat.mod_eq_of_lt (by omega)]
              have taken := ih turnsNext (fun call member => same call (List.mem_cons_of_mem _ member))
                (by omega) count call found
              rw [taken, counter, Nat.add_assoc, Nat.add_comm 1 count]

/-- In as many calls as there are healthy targets, each of them is first once. -/
theorem firsts_of_round {healthy : List Nat} (labels : List PoolLabel) {counter : Nat}
    (turns : ∀ (count : Nat) (call : CandidatesCall), (state.calls labels)[count]? = some call →
      (call.candidates.map Candidate.index).take healthy.length = healthy.rotate (counter + count))
    {start : Nat} (round : start + healthy.length ≤ (state.calls labels).length) :
    ((((state.calls labels).drop start).take healthy.length).map fun call =>
      (call.candidates.map Candidate.index).head?).Perm (healthy.map some) := by
  have heads : (((state.calls labels).drop start).take healthy.length).map
      (fun call => (call.candidates.map Candidate.index).head?) =
        (List.range healthy.length).map fun round => (healthy.rotate (counter + start + round)).head? := by
    apply List.ext_getElem?
    intro index
    rw [List.getElem?_map, List.getElem?_map, List.getElem?_take, List.getElem?_drop]
    by_cases inside : index < healthy.length
    · have bound : start + index < (state.calls labels).length := by omega
      rw [if_pos inside, List.getElem?_range inside, List.getElem?_eq_getElem bound, Option.map_some,
        Option.map_some, Nat.add_assoc, ← turns (start + index) _ (List.getElem?_eq_getElem bound),
        List.head?_take, if_neg (by omega)]
    · rw [if_neg inside, List.getElem?_eq_none (by rw [List.length_range]; omega)]
      rfl
  rw [heads, heads_of_turns]
  exact (List.rotate_perm _ _).map some

/-- For every state of a pool, every strategy, every health and every shuffle, the
    candidates are all targets, each once and with its own address, the healthy ones first
    and the others in configuration order. In round robin, for as long as the same targets
    are healthy and the counter does not wrap, the calls of a run rotate the healthy
    targets, and each of these is first once in every round. -/
theorem candidates_cover_and_take_turns (state : PoolState) :
    (∀ clock shuffle,
      ((state.pool.candidates clock shuffle).map Candidate.index).Perm (List.range state.pool.targets.length) ∧
        (∀ candidate ∈ state.pool.candidates clock shuffle,
          (state.pool.targets[candidate.index]?).map Target.addr = some candidate.addr) ∧
        ∃ front, (state.pool.candidates clock shuffle).map Candidate.index = front ++
            (List.range state.pool.targets.length).filter (fun index => !state.pool.isHealthy index (clock index)) ∧
          ∀ index ∈ front, state.pool.isHealthy index (clock index) = true) ∧
      ∀ labels healthy, state.pool.strategy = .roundRobin → healthy ≠ [] →
        (∀ call ∈ state.calls labels, call.healthy = healthy) →
        state.pool.roundRobinCounter + (state.calls labels).length ≤ 2 ^ 64 →
        (∀ call ∈ state.calls labels, ∃ turn,
          (call.candidates.map Candidate.index).take healthy.length = healthy.rotate turn) ∧
        ∀ start, start + healthy.length ≤ (state.calls labels).length →
          ((((state.calls labels).drop start).take healthy.length).map fun call =>
            (call.candidates.map Candidate.index).head?).Perm (healthy.map some) := by
  constructor
  · intro clock shuffle
    have indices : (state.pool.candidates clock shuffle).map Candidate.index = _ := UpstreamPool.map_index_candidates
    refine ⟨?_, fun _ => UpstreamPool.addr_of_candidate, state.pool.ordered clock shuffle, indices,
      fun _ => UpstreamPool.healthy_of_ordered⟩
    rw [indices]
    exact UpstreamPool.ordered_append_down_perm
  · intro labels healthy strategy some same unwrapped
    have turns := calls_take_turns some labels strategy same unwrapped
    refine ⟨?_, fun start round => firsts_of_round labels turns round⟩
    intro call member
    obtain ⟨count, found⟩ := List.mem_iff_getElem?.mp member
    exact ⟨_, turns count call found⟩

def noShuffle : Shuffle := ⟨fun list => list, fun _ => .refl _⟩

/-- Two targets that take turns. -/
def twoTargets : PoolState :=
  ⟨.new [.v4 ⟨[10, 0, 0, 1], rfl⟩ 389, .v4 ⟨[10, 0, 0, 2], rfl⟩ 389] (by decide) .roundRobin (fromSecs 30), []⟩

theorem candidates_take_turns_two :
    (((twoTargets.calls [.candidates (fun _ => 0) noShuffle, .candidates (fun _ => 5) noShuffle]).drop 0).take 2 |>.map
      fun call => (call.candidates.map Candidate.index).head?).Perm [some 0, some 1] := by
  obtain ⟨-, turns⟩ := candidates_cover_and_take_turns twoTargets
  exact (turns [.candidates (fun _ => 0) noShuffle, .candidates (fun _ => 5) noShuffle] [0, 1] rfl (by decide)
    (by decide +kernel) (by decide +kernel)).2 0 (by decide +kernel)

end PoolState

end AiProtect
