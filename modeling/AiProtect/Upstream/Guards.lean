import AiProtect.Upstream.Pool
import Mathlib.Data.List.Perm.Basic

/-! # Guards and load

A target's count of active connections goes up with each guard that is made for it and
down with each that is dropped, wherever and whenever that happens. So the count is the
number of live guards in every state a pool can reach, and the least loaded targets are
the ones tried first.
-/

namespace AiProtect

namespace PoolState

/-- The counts of the targets are those of the live guards. -/
structure Counted (state : PoolState) : Prop where
  counts : ∀ (index : Nat) (target : Target), state.pool.targets[index]? = some target →
    target.activeConnections = state.guards.count index
  few : state.guards.length ≤ 2 ^ 63
  inside : ∀ index ∈ state.guards, index < state.pool.targets.length

def start (addrs : List SocketAddr) (nonempty : addrs ≠ []) (strategy : LoadBalanceStrategy) (cooldown : Nat) :
    PoolState :=
  ⟨.new addrs nonempty strategy cooldown, []⟩

theorem Counted.start {addrs : List SocketAddr} (nonempty : addrs ≠ []) (strategy : LoadBalanceStrategy)
    (cooldown : Nat) : (start addrs nonempty strategy cooldown).Counted where
  counts := by
    intro index target found
    obtain ⟨addr, -, rfl⟩ := List.mem_map.mp (List.mem_of_getElem? found)
    rfl
  few := Nat.zero_le _
  inside := fun _ member => by cases member

namespace Counted

variable {state : PoolState}

/-- A change of one target, with the guards it goes with. -/
theorem modify (counted : state.Counted) {index : Nat} {change : Target → Target} {guards : List Nat}
    (few : guards.length ≤ 2 ^ 63) (inside : ∀ other ∈ guards, other < state.pool.targets.length)
    (others : ∀ other, other ≠ index → guards.count other = state.guards.count other)
    (here : ∀ target, target.activeConnections = state.guards.count index →
      (change target).activeConnections = guards.count index) :
    Counted ⟨state.pool.modify index change, guards⟩ where
  counts := by
    intro other target found
    by_cases same : index = other
    · subst same
      rw [UpstreamPool.targets_modify] at found
      obtain ⟨before, known, rfl⟩ := Option.map_eq_some_iff.mp found
      exact here before (counted.counts index before known)
    · rw [UpstreamPool.targets_modify_of_ne same] at found
      rw [others other (Ne.symm same)]
      exact counted.counts other target found
  few := few
  inside := by
    intro other member
    have bound := inside other member
    simpa only [UpstreamPool.modify, List.length_modify] using bound

theorem connected (counted : state.Counted) {index : Nat} (inside : index < state.pool.targets.length)
    (room : state.guards.length < 2 ^ 63) :
    Counted ⟨state.pool.markConnected index, state.guards ++ [index]⟩ := by
  apply counted.modify
  · rw [List.length_append, List.length_singleton]
    omega
  · intro other member
    rcases List.mem_append.mp member with before | last
    · exact counted.inside other before
    · rwa [List.mem_singleton.mp last]
  · intro other different
    rw [List.count_append, List.count_singleton, if_neg (by simpa using Ne.symm different), Nat.add_zero]
  · intro target same
    have small := List.count_le_length (a := index) (l := state.guards)
    dsimp only
    rw [List.count_append, List.count_singleton_self, same, Nat.mod_eq_of_lt (by omega)]

/-- The count of a target with a live guard is not zero. -/
theorem count_pos (counted : state.Counted) {position index : Nat} (live : state.guards[position]? = some index) :
    ∃ target : Target, state.pool.targets[index]? = some target ∧ 1 ≤ target.activeConnections := by
  have member := List.mem_of_getElem? live
  have inside := counted.inside index member
  have found := List.getElem?_eq_getElem inside
  refine ⟨_, found, ?_⟩
  rw [counted.counts index _ found]
  exact List.count_pos_iff.mpr member

theorem dropped (counted : state.Counted) {position index : Nat} (live : state.guards[position]? = some index) :
    Counted ⟨state.pool.dropGuard index, state.guards.eraseIdx position⟩ := by
  obtain ⟨inside, here⟩ := List.getElem?_eq_some_iff.mp live
  have perm : (index :: state.guards.eraseIdx position).Perm state.guards := by
    rw [← here]
    exact List.getElem_cons_eraseIdx_perm inside
  have counts := fun other => perm.count_eq other
  apply counted.modify
  · rw [List.length_eraseIdx_of_lt inside]
    have few := counted.few
    omega
  · exact fun other member => counted.inside other (List.mem_of_mem_eraseIdx member)
  · intro other different
    have same := counts other
    rwa [List.count_cons_of_ne (Ne.symm different)] at same
  · intro target same
    have one := counts index
    have few := counted.few
    have small := List.count_le_length (a := index) (l := state.guards)
    rw [List.count_cons_self] at one
    dsimp only
    omega

theorem step (counted : state.Counted) (label : PoolLabel) : (state.step label).Counted := by
  cases label with
  | candidates clock shuffle =>
      simp only [PoolState.step, UpstreamPool.afterCandidates]
      split
      · exact ⟨counted.counts, counted.few, counted.inside⟩
      · exact counted
  | connected index =>
      simp only [PoolState.step]
      split
      · rename_i room
        exact counted.connected room.1 room.2
      · exact counted
  | failed index now =>
      simp only [PoolState.step, UpstreamPool.markFailed]
      cases checkedAdd now state.pool.cooldown with
      | none => exact counted
      | some deadline => exact counted.modify counted.few counted.inside (fun _ _ => rfl) fun _ same => same
  | dropped position =>
      simp only [PoolState.step]
      split
      · rename_i index live
        exact counted.dropped live
      · exact counted

theorem run (counted : state.Counted) (labels : List PoolLabel) : (labels.foldl PoolState.step state).Counted :=
  List.foldlRecOn labels PoolState.step counted fun _ kept label _ => kept.step label

theorem activeConnections_eq (counted : state.Counted) {index : Nat} (inside : index < state.pool.targets.length) :
    state.pool.activeConnections index = state.guards.count index := by
  have found := List.getElem?_eq_getElem inside
  rw [UpstreamPool.activeConnections, found, Option.map_some, Option.getD_some]
  exact counted.counts index _ found

/-- The healthy targets in order of their live guards. -/
theorem ordered_precedes (counted : state.Counted) (least : state.pool.strategy = .leastConnections)
    (clock : Nat → Int) (shuffle : Shuffle) :
    (state.pool.ordered clock shuffle).Pairwise (Precedes fun index => state.guards.count index) := by
  have sorted : (state.pool.healthy clock).Pairwise (· < ·) := List.pairwise_lt_range.filter _
  have ordered := pairwise_mergeSort_precedes sorted state.pool.activeConnections
  have same : state.pool.ordered clock shuffle = (state.pool.healthy clock).mergeSort fun index other =>
      decide (state.pool.activeConnections index ≤ state.pool.activeConnections other) := by
    simp only [UpstreamPool.ordered, least]
  rw [same]
  apply ordered.imp_of_mem
  intro index other member otherMember precedes
  have healthy : ∀ index ∈ (state.pool.healthy clock).mergeSort fun index other =>
      decide (state.pool.activeConnections index ≤ state.pool.activeConnections other),
      index < state.pool.targets.length := by
    intro index member
    exact List.mem_range.mp (List.mem_filter.mp (List.mem_mergeSort.mp member)).1
  unfold Precedes at precedes ⊢
  rwa [counted.activeConnections_eq (healthy index member),
    counted.activeConnections_eq (healthy other otherMember)] at precedes

end Counted

/-- In every state that a pool can reach, the count of each target is the number of its live
    guards, so that no drop takes it below zero; and under the least-connections strategy
    the healthy targets are listed by that number, with ties in configuration order. -/
theorem load_follows_connections {addrs : List SocketAddr} (nonempty : addrs ≠ []) (strategy : LoadBalanceStrategy)
    (cooldown : Nat) (labels : List PoolLabel) {state : PoolState}
    (reached : labels.foldl step (start addrs nonempty strategy cooldown) = state) :
    (∀ (index : Nat) (target : Target), state.pool.targets[index]? = some target →
        target.activeConnections = state.guards.count index) ∧
      (∀ (position : Nat) index, state.guards[position]? = some index →
        ∃ target : Target, state.pool.targets[index]? = some target ∧ 1 ≤ target.activeConnections) ∧
      (state.pool.strategy = .leastConnections → ∀ clock shuffle,
        ∃ front, (state.pool.candidates clock shuffle).map Candidate.index = front ++ state.pool.down clock ∧
          front.Perm (state.pool.healthy clock) ∧
          front.Pairwise (Precedes fun index => state.guards.count index)) := by
  have counted : state.Counted := by
    rw [← reached]
    exact (Counted.start nonempty strategy cooldown).run labels
  refine ⟨counted.counts, fun _ _ live => counted.count_pos live, ?_⟩
  intro least clock shuffle
  exact ⟨state.pool.ordered clock shuffle, UpstreamPool.map_index_candidates, UpstreamPool.ordered_perm,
    counted.ordered_precedes least clock shuffle⟩

/-- Two connections to the first of two targets. -/
theorem load_two_connections :
    ∃ state : PoolState, state.guards = [0, 0] ∧
      (∀ (index : Nat) (target : Target), state.pool.targets[index]? = some target →
        target.activeConnections = state.guards.count index) := by
  refine ⟨[PoolLabel.connected 0, .connected 0].foldl step
    (start [.v4 ⟨[10, 0, 0, 1], rfl⟩ 389, .v4 ⟨[10, 0, 0, 2], rfl⟩ 389] (by decide) .leastConnections (fromSecs 30)),
    by decide +kernel, ?_⟩
  exact (load_follows_connections (by decide) .leastConnections (fromSecs 30) [.connected 0, .connected 0] rfl).1

end PoolState

end AiProtect
