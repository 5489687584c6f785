import AiProtect.Upstream.Guards

/-! # Failover

A connection dials the candidates of the pool one after the other until one answers. What a
dial came to is written down when it has ended, so a dial that the deadline cuts short
leaves no trace on its target.
-/

namespace AiProtect

/-- How a dial ends. One that is pending is given up when the deadline passes. -/
inductive DialOutcome where
  | success
  | error (message : String)
  | pending
  deriving DecidableEq

/-- What the dials of a connection come to: for each target, the outcome and the reading of
    the clock when the dial is over. -/
structure Dials where
  outcome : Nat → DialOutcome
  ended : Nat → Int

def Dials.fails (dials : Dials) (candidate : Candidate) : Bool :=
  match dials.outcome candidate.index with
  | .error _ => true
  | _ => false

theorem Dials.fails_of_error {dials : Dials} {candidate : Candidate} {message : String}
    (error : dials.outcome candidate.index = .error message) : dials.fails candidate = true := by
  simp only [fails, error]

/-- How far `connect_upstream` gets by itself. -/
inductive Connecting where
  | ready (result : Except String Nat)
  | pending
  | panicked

structure Attempt where
  state : PoolState
  dialed : List Nat
  result : Connecting

def Attempt.after (index : Nat) (attempt : Attempt) : Attempt :=
  { attempt with dialed := index :: attempt.dialed }

/-- `with_timeout`. Nothing is the panic of what it waits for. -/
def withTimeout (ioTimeout : Nat) : Connecting → Option (Except String Nat)
  | .ready result => some result
  | .pending => some (.error s!"timed out after {debugDuration ioTimeout}")
  | .panicked => none

theorem withTimeout_eq_ok {ioTimeout index : Nat} {connecting : Connecting}
    (connected : withTimeout ioTimeout connecting = some (.ok index)) : connecting = .ready (.ok index) := by
  cases connecting with
  | ready result => rw [Option.some.inj connected]
  | pending | panicked => cases connected

theorem withTimeout_eq_none_iff {ioTimeout : Nat} {connecting : Connecting} :
    withTimeout ioTimeout connecting = none ↔ connecting = .panicked := by
  cases connecting with
  | ready | pending => simp only [withTimeout, reduceCtorEq]
  | panicked => exact iff_of_true rfl rfl

/-- The loop of `connect_upstream`. The stream it returns holds the guard of its target. -/
def dialCandidates (dials : Dials) (state : PoolState) (lastErr : Option String) : List Candidate → Attempt
  | [] =>
      match lastErr with
      | some message => ⟨state, [], .ready (.error message)⟩
      | none => ⟨state, [], .panicked⟩
  | candidate :: rest =>
      match dials.outcome candidate.index with
      | .success =>
          ⟨⟨state.pool.markConnected candidate.index, state.guards ++ [candidate.index]⟩, [candidate.index],
            .ready (.ok candidate.index)⟩
      | .error message =>
          match state.pool.markFailed candidate.index (dials.ended candidate.index) with
          | some pool => (dialCandidates dials { state with pool } (some message) rest).after candidate.index
          | none => ⟨state, [candidate.index], .panicked⟩
      | .pending => ⟨state, [candidate.index], .pending⟩

-- Generated once, ahead of the proofs by induction on the loop.
attribute [elab_as_elim] dialCandidates.induct_unfolding

def connectUpstream (state : PoolState) (clock : Nat → Int) (shuffle : Shuffle) (dials : Dials) : Attempt :=
  dialCandidates dials { state with pool := state.pool.afterCandidates clock } none
    (state.pool.candidates clock shuffle)

/-- The target is down at least until the deadline. -/
def UpstreamPool.DownUntil (pool : UpstreamPool) (index : Nat) (deadline : Int) : Prop :=
  ∃ target : Target, pool.targets[index]? = some target ∧
    ∃ limit, target.downUntil = some limit ∧ deadline ≤ limit

/-- The step is no successful dial to the target, and no failed one of an earlier time. -/
def PoolLabel.KeepsDown (index : Nat) (since : Int) : PoolLabel → Prop
  | .connected other => other ≠ index
  | .failed other now => other = index → since ≤ now
  | _ => True

/-- The target is not healthy before a cooldown has passed since a reading of the clock,
    whatever else is done with the pool, unless a dial to it succeeds. -/
def PoolState.CoolsDown (state : PoolState) (index : Nat) (since : Int) : Prop :=
  ∀ later : List PoolLabel, (∀ label ∈ later, label.KeepsDown index since) →
    ∀ now, since ≤ now → now < since + state.pool.cooldown →
      (later.foldl PoolState.step state).pool.isHealthy index now = false

/-- What failover promises of an attempt from a state, under a deadline. -/
structure Attempt.FailsOver (before : PoolState) (candidates : List Candidate) (dials : Dials) (ioTimeout : Nat)
    (attempt : Attempt) : Prop where
  ends : withTimeout ioTimeout attempt.result ≠ none
  inOrder : attempt.dialed <+: candidates.map Candidate.index
  once : attempt.dialed.Nodup
  connected : ∀ index, withTimeout ioTimeout attempt.result = some (.ok index) →
    ∃ failed, attempt.dialed = failed ++ [index] ∧ (∀ other ∈ failed, dials.outcome other ≠ .success) ∧
      dials.outcome index = .success ∧ attempt.state.guards = before.guards ++ [index]
  failed : ∀ error, withTimeout ioTimeout attempt.result = some (.error error) →
    (∀ index ∈ attempt.dialed, dials.outcome index ≠ .success) ∧ attempt.state.guards = before.guards ∧
      (attempt.dialed = candidates.map Candidate.index ∨ ∃ index ∈ attempt.dialed, dials.outcome index = .pending)
  counted : before.Counted → before.guards.length < 2 ^ 63 → attempt.state.Counted
  cooled : ∀ index ∈ attempt.dialed, dials.outcome index ≠ .success →
    attempt.state.CoolsDown index (dials.ended index)
  untouched : ∀ index, index ∉ attempt.dialed →
    (attempt.state.pool.targets[index]?).map Target.downUntil =
      (before.pool.targets[index]?).map Target.downUntil

namespace UpstreamPool

variable {pool : UpstreamPool} {index : Nat}

@[simp] theorem cooldown_modify (change : Target → Target) : (pool.modify index change).cooldown = pool.cooldown :=
  rfl

theorem markFailed_eq_some {now : Int} {after : UpstreamPool} (marked : pool.markFailed index now = some after) :
    after = pool.modify index fun target => { target with downUntil := some (now + pool.cooldown) } := by
  obtain ⟨deadline, added, rfl⟩ := Option.map_eq_some_iff.mp marked
  rw [checkedAdd_eq_some added]

theorem downUntil_markFailed {now deadline : Int} {after : UpstreamPool}
    (marked : pool.markFailed index now = some after) (inside : index < pool.targets.length)
    (late : deadline ≤ now + pool.cooldown) : after.DownUntil index deadline := by
  obtain rfl := markFailed_eq_some marked
  refine ⟨{ pool.targets[index] with downUntil := some (now + pool.cooldown) }, ?_, _, rfl, late⟩
  rw [targets_modify, List.getElem?_eq_getElem inside, Option.map_some]

theorem DownUntil.congr {after : UpstreamPool} {deadline : Int} (down : pool.DownUntil index deadline)
    (same : after.targets[index]? = pool.targets[index]?) : after.DownUntil index deadline := by
  unfold DownUntil
  rwa [same]

theorem DownUntil.lt {deadline : Int} (down : pool.DownUntil index deadline) : index < pool.targets.length := by
  obtain ⟨target, found, -⟩ := down
  exact (List.getElem?_eq_some_iff.mp found).1

theorem DownUntil.isHealthy {deadline now : Int} (down : pool.DownUntil index deadline) (early : now < deadline) :
    pool.isHealthy index now = false := by
  obtain ⟨target, found, limit, set, late⟩ := down
  simp only [UpstreamPool.isHealthy, found, Option.any_some, Target.isHealthy, set]
  exact decide_eq_false (by omega)

/-- A target that is not healthy is down for longer. -/
theorem downUntil_of_isHealthy {now : Int} (inside : index < pool.targets.length)
    (down : pool.isHealthy index now = false) : pool.DownUntil index (now + 1) := by
  simp only [UpstreamPool.isHealthy, List.getElem?_eq_getElem inside, Option.any_some, Target.isHealthy] at down
  refine ⟨pool.targets[index], List.getElem?_eq_getElem inside, ?_⟩
  split at down
  · cases down
  · rename_i limit set
    exact ⟨limit, set, by have := of_decide_eq_false down; omega⟩

end UpstreamPool

namespace PoolState

variable {state : PoolState} {index : Nat} {since : Int}

/-- A target stays down through a step that is no successful dial to it. -/
theorem step_downUntil {label : PoolLabel} (keeps : label.KeepsDown index since)
    (down : state.pool.DownUntil index (since + state.pool.cooldown)) :
    (state.step label).pool.DownUntil index (since + state.pool.cooldown) := by
  cases label with
  | candidates clock shuffle =>
      simp only [step, UpstreamPool.afterCandidates]
      split
      · exact down
      · exact down
  | connected other =>
      simp only [step]
      split
      · exact down.congr (UpstreamPool.targets_modify_of_ne keeps _)
      · exact down
  | failed other now =>
      simp only [step]
      cases marked : state.pool.markFailed other now with
      | none => exact down
      | some pool =>
          by_cases same : other = index
          · subst same
            have later := keeps rfl
            exact UpstreamPool.downUntil_markFailed marked down.lt (by omega)
          · obtain rfl := UpstreamPool.markFailed_eq_some marked
            exact down.congr (UpstreamPool.targets_modify_of_ne same _)
  | dropped position =>
      simp only [step]
      split
      · rename_i other live
        by_cases same : other = index
        · subst same
          obtain ⟨target, found, limit, set, late⟩ := down
          refine ⟨{ target with activeConnections := (target.activeConnections + (2 ^ 64 - 1)) % 2 ^ 64 }, ?_,
            limit, set, late⟩
          rw [UpstreamPool.dropGuard, UpstreamPool.targets_modify, found, Option.map_some]
        · exact down.congr (UpstreamPool.targets_modify_of_ne same _)
      · exact down

theorem coolsDown_of_downUntil (down : state.pool.DownUntil index (since + state.pool.cooldown)) :
    state.CoolsDown index since := by
  intro later keeps now _ early
  refine UpstreamPool.DownUntil.isHealthy ?_ early
  induction later generalizing state with
  | nil => exact down
  | cons label later ih =>
      have kept := step_downUntil (keeps label List.mem_cons_self) down
      rw [← (step_config label).2] at kept early ⊢
      exact ih kept (fun other member => keeps other (List.mem_cons_of_mem _ member)) early

/-- A target cools down from a reading of the clock on if and only if there is no cooldown
    or it is down until that has passed. -/
theorem coolsDown_iff (inside : index < state.pool.targets.length) :
    state.CoolsDown index since ↔
      state.pool.cooldown = 0 ∨ state.pool.DownUntil index (since + state.pool.cooldown) := by
  constructor
  · intro cools
    by_cases none : state.pool.cooldown = 0
    · exact .inl none
    · right
      have down := cools [] (fun _ member => by cases member) (since + state.pool.cooldown - 1) (by omega) (by omega)
      have later := UpstreamPool.downUntil_of_isHealthy inside down
      rwa [Int.sub_add_cancel] at later
  · rintro (none | down)
    · intro _ _ now _ early
      omega
    · exact coolsDown_of_downUntil down

end PoolState

section Dialing

variable {dials : Dials} {state : PoolState} {lastErr : Option String} {candidates : List Candidate}

theorem dialed_inOrder :
    (dialCandidates dials state lastErr candidates).dialed <+: candidates.map Candidate.index := by
  fun_induction dialCandidates dials state lastErr candidates with
  | case1 | case2 => exact List.nil_prefix
  | case3 _ _ candidate rest _ | case5 _ _ candidate rest _ _ _ | case6 _ _ candidate rest _ =>
      exact ⟨rest.map Candidate.index, rfl⟩
  | case4 _ _ candidate rest _ _ _ _ ih => exact List.cons_prefix_cons.mpr ⟨rfl, ih⟩

theorem dialed_nodup (distinct : (candidates.map Candidate.index).Nodup) :
    (dialCandidates dials state lastErr candidates).dialed.Nodup :=
  distinct.sublist dialed_inOrder.sublist

theorem config_dialCandidates :
    (dialCandidates dials state lastErr candidates).state.pool.cooldown = state.pool.cooldown ∧
      (dialCandidates dials state lastErr candidates).state.pool.targets.length = state.pool.targets.length := by
  fun_induction dialCandidates dials state lastErr candidates with
  | case1 | case2 | case5 | case6 => exact ⟨rfl, rfl⟩
  | case3 => exact ⟨rfl, List.length_modify _ _ _⟩
  | case4 state _ candidate _ _ _ pool marked ih =>
      obtain rfl := UpstreamPool.markFailed_eq_some marked
      exact ⟨ih.1, ih.2.trans (List.length_modify _ _ _)⟩

theorem targets_of_not_dialed {index : Nat}
    (not : index ∉ (dialCandidates dials state lastErr candidates).dialed) :
    (dialCandidates dials state lastErr candidates).state.pool.targets[index]? = state.pool.targets[index]? := by
  fun_induction dialCandidates dials state lastErr candidates with
  | case1 | case2 | case5 | case6 => rfl
  | case3 state _ candidate _ _ =>
      exact UpstreamPool.targets_modify_of_ne (fun same => not (List.mem_singleton.mpr same.symm)) _
  | case4 state _ candidate _ _ _ pool marked ih =>
      have later := ih fun member => not (List.mem_cons_of_mem _ member)
      have different : candidate.index ≠ index := fun same => not (same ▸ List.mem_cons_self)
      obtain rfl := UpstreamPool.markFailed_eq_some marked
      exact later.trans (UpstreamPool.targets_modify_of_ne different _)

/-- An attempt connects to the last target it dials, and has a guard for that one. -/
theorem dialed_of_connected {index : Nat}
    (connected : (dialCandidates dials state lastErr candidates).result = .ready (.ok index)) :
    ∃ failed, (dialCandidates dials state lastErr candidates).dialed = failed ++ [index] ∧
      (∀ other ∈ failed, dials.outcome other ≠ .success) ∧ dials.outcome index = .success ∧
      (dialCandidates dials state lastErr candidates).state.guards = state.guards ++ [index] := by
  fun_induction dialCandidates dials state lastErr candidates with
  | case1 | case2 | case5 | case6 => cases connected
  | case3 state _ candidate _ success =>
      cases connected
      exact ⟨[], rfl, List.forall_mem_nil _, success, rfl⟩
  | case4 state _ candidate rest message error pool marked ih =>
      obtain ⟨failed, dialed, failures, success, guards⟩ := ih connected
      refine ⟨candidate.index :: failed, congrArg (candidate.index :: ·) dialed, ?_, success, guards⟩
      refine List.forall_mem_cons.mpr ⟨?_, failures⟩
      rw [error]
      exact DialOutcome.noConfusion

/-- An attempt that does not connect has dialed every candidate, or waits for one. -/
theorem dialed_of_not_connected (ends : (dialCandidates dials state lastErr candidates).result ≠ .panicked)
    (not : ∀ index, (dialCandidates dials state lastErr candidates).result ≠ .ready (.ok index)) :
    (∀ index ∈ (dialCandidates dials state lastErr candidates).dialed, dials.outcome index ≠ .success) ∧
      (dialCandidates dials state lastErr candidates).state.guards = state.guards ∧
      ((dialCandidates dials state lastErr candidates).dialed = candidates.map Candidate.index ∨
        ∃ index ∈ (dialCandidates dials state lastErr candidates).dialed, dials.outcome index = .pending) := by
  fun_induction dialCandidates dials state lastErr candidates with
  | case1 => exact ⟨List.forall_mem_nil _, rfl, .inl rfl⟩
  | case2 | case5 => exact absurd rfl ends
  | case3 _ _ candidate => exact absurd rfl (not candidate.index)
  | case4 state _ candidate rest message error pool marked ih =>
      obtain ⟨failures, guards, last⟩ := ih ends not
      refine ⟨List.forall_mem_cons.mpr ⟨?_, failures⟩, guards, ?_⟩
      · rw [error]
        exact DialOutcome.noConfusion
      · rcases last with dialed | ⟨index, member, pending⟩
        · exact .inl (congrArg (candidate.index :: ·) dialed)
        · exact .inr ⟨index, List.mem_cons_of_mem _ member, pending⟩
  | case6 state _ candidate rest pending =>
      refine ⟨?_, rfl, .inr ⟨candidate.index, List.mem_cons_self, pending⟩⟩
      intro index member
      rw [List.mem_singleton.mp member, pending]
      exact DialOutcome.noConfusion

/-- A dial that ends in an error puts its target down for a cooldown. -/
theorem downUntil_of_fails (distinct : (candidates.map Candidate.index).Nodup)
    (ends : (dialCandidates dials state lastErr candidates).result ≠ .panicked) {index : Nat}
    (dialed : index ∈ (dialCandidates dials state lastErr candidates).dialed)
    (inside : index < state.pool.targets.length) {message : String} (error : dials.outcome index = .error message) :
    (dialCandidates dials state lastErr candidates).state.pool.DownUntil index
      (dials.ended index + state.pool.cooldown) := by
  fun_induction dialCandidates dials state lastErr candidates with
  | case1 | case2 => cases dialed
  | case3 _ _ _ _ outcome | case6 _ _ _ _ outcome =>
      rw [List.mem_singleton.mp dialed, outcome] at error
      cases error
  | case5 => exact absurd rfl ends
  | case4 state _ candidate rest _ _ pool marked ih =>
      obtain ⟨fresh, distinct⟩ := List.nodup_cons.mp distinct
      rcases List.mem_cons.mp dialed with rfl | later
      · -- the target is not among the rest, which leave it as it is
        have down := UpstreamPool.downUntil_markFailed marked inside (le_refl _)
        exact down.congr (targets_of_not_dialed fun member => fresh (dialed_inOrder.subset member))
      · obtain rfl := UpstreamPool.markFailed_eq_some marked
        exact ih distinct ends later (by rwa [UpstreamPool.modify, List.length_modify])

/-- A pending dial leaves its target as it was. -/
theorem targets_of_pending (distinct : (candidates.map Candidate.index).Nodup) {index : Nat}
    (pending : dials.outcome index = .pending) :
    (dialCandidates dials state lastErr candidates).state.pool.targets[index]? = state.pool.targets[index]? := by
  fun_induction dialCandidates dials state lastErr candidates with
  | case1 | case2 | case5 | case6 => rfl
  | case3 state _ candidate _ success =>
      refine UpstreamPool.targets_modify_of_ne (fun same => ?_) _
      rw [← same, success] at pending
      cases pending
  | case4 state _ candidate rest _ error pool marked ih =>
      obtain rfl := UpstreamPool.markFailed_eq_some marked
      have different : candidate.index ≠ index := by
        intro same
        rw [← same, error] at pending
        cases pending
      exact (ih (List.nodup_cons.mp distinct).2).trans (UpstreamPool.targets_modify_of_ne different _)

/-- The loop panics if and only if the end of a cooldown is no `Instant`, or there is
    nothing to dial. -/
theorem dialCandidates_panicked_iff :
    (dialCandidates dials state lastErr candidates).result = .panicked ↔
      (∃ candidate ∈ candidates.takeWhile dials.fails,
        checkedAdd (dials.ended candidate.index) state.pool.cooldown = none) ∨
      candidates = [] ∧ lastErr = none := by
  fun_induction dialCandidates dials state lastErr candidates with
  | case1 => simp
  | case2 => simp
  | case3 state _ candidate rest outcome | case6 state _ candidate rest outcome =>
      simp [Dials.fails, outcome]
  | case4 state _ candidate rest _ error pool marked ih =>
      have fails := Dials.fails_of_error error
      have added : checkedAdd (dials.ended candidate.index) state.pool.cooldown ≠ none := by
        intro none
        rw [UpstreamPool.markFailed, none] at marked
        cases marked
      obtain rfl := UpstreamPool.markFailed_eq_some marked
      simpa [Attempt.after, List.takeWhile_cons_of_pos fails, added] using ih
  | case5 state _ candidate rest _ error marked =>
      have fails := Dials.fails_of_error error
      have added := Option.map_eq_none_iff.mp marked
      simp [List.takeWhile_cons_of_pos fails, added]

/-- The pending dial of an attempt is the first that does not end in an error. -/
theorem pending_dialed_iff (ends : (dialCandidates dials state lastErr candidates).result ≠ .panicked) {index : Nat}
    (pending : dials.outcome index = .pending) :
    index ∈ (dialCandidates dials state lastErr candidates).dialed ↔
      ∃ candidate, candidates.find? (fun candidate => !dials.fails candidate) = some candidate ∧
        candidate.index = index := by
  fun_induction dialCandidates dials state lastErr candidates with
  | case1 => simp
  | case2 => simp
  | case3 state _ candidate rest outcome | case6 state _ candidate rest outcome =>
      simp [Dials.fails, outcome, eq_comm]
  | case4 state _ candidate rest _ error pool marked ih =>
      have fails := Dials.fails_of_error error
      have different : candidate.index ≠ index := by
        intro same
        rw [← same, error] at pending
        cases pending
      rw [List.find?_cons_of_neg (by simp [fails]), ← ih ends]
      simp [Attempt.after, different.symm]
  | case5 => exact absurd rfl ends

theorem counted_dialCandidates (counted : state.Counted) (room : state.guards.length < 2 ^ 63)
    (inside : ∀ candidate ∈ candidates, candidate.index < state.pool.targets.length) :
    (dialCandidates dials state lastErr candidates).state.Counted := by
  fun_induction dialCandidates dials state lastErr candidates with
  | case1 | case2 | case5 | case6 => exact counted
  | case3 state _ candidate rest _ => exact counted.connected (inside candidate List.mem_cons_self) room
  | case4 state _ candidate rest _ _ pool marked ih =>
      obtain rfl := UpstreamPool.markFailed_eq_some marked
      apply ih
      · exact counted.modify counted.few counted.inside (fun _ _ => rfl) fun _ same => same
      · exact room
      · intro other member
        rw [UpstreamPool.modify, List.length_modify]
        exact inside other (List.mem_cons_of_mem _ member)

end Dialing

/-- What failover rests on: the end of every cooldown it starts is an `Instant`, and the dial
    it waits for last is not pending when the deadline passes, unless there is no cooldown
    or the target is down for as long anyway. -/
structure Dials.Recorded (dials : Dials) (pool : UpstreamPool) (candidates : List Candidate) : Prop where
  instants : ∀ candidate ∈ candidates.takeWhile dials.fails,
    checkedAdd (dials.ended candidate.index) pool.cooldown ≠ none
  last : ∀ candidate, candidates.find? (fun candidate => !dials.fails candidate) = some candidate →
    dials.outcome candidate.index = .pending →
      pool.cooldown = 0 ∨ pool.DownUntil candidate.index (dials.ended candidate.index + pool.cooldown)

namespace PoolState

variable {state : PoolState} {clock : Nat → Int} {shuffle : Shuffle} {dials : Dials}

theorem indices_perm :
    ((state.pool.candidates clock shuffle).map Candidate.index).Perm (List.range state.pool.targets.length) := by
  rw [UpstreamPool.map_index_candidates]
  exact UpstreamPool.ordered_append_down_perm

theorem indices_nodup : ((state.pool.candidates clock shuffle).map Candidate.index).Nodup :=
  indices_perm.nodup_iff.mpr List.nodup_range

theorem candidates_ne_nil : state.pool.candidates clock shuffle ≠ [] := by
  intro empty
  have same : ((state.pool.candidates clock shuffle).map Candidate.index).length = _ := indices_perm.length_eq
  rw [empty, List.length_range] at same
  exact state.pool.nonempty (List.eq_nil_of_length_eq_zero same.symm)

theorem connectUpstream_panicked_iff :
    (connectUpstream state clock shuffle dials).result = .panicked ↔
      ∃ candidate ∈ (state.pool.candidates clock shuffle).takeWhile dials.fails,
        checkedAdd (dials.ended candidate.index) state.pool.cooldown = none := by
  rw [connectUpstream, dialCandidates_panicked_iff, (state.pool.afterCandidates_config clock).2.1]
  simp [candidates_ne_nil]

theorem counted_connectUpstream (counted : state.Counted) (room : state.guards.length < 2 ^ 63) :
    (connectUpstream state clock shuffle dials).state.Counted := by
  obtain ⟨-, -, targets⟩ := state.pool.afterCandidates_config clock
  refine counted_dialCandidates ⟨?_, counted.few, ?_⟩ room ?_
  · rw [targets]
    exact counted.counts
  · rw [targets]
    exact counted.inside
  · intro candidate member
    rw [targets]
    exact List.mem_range.mp (indices_perm.subset (List.mem_map_of_mem member))

/-- A dialed target cools down in the pool that is left, if and only if its dial was recorded. -/
theorem cooled_iff (ends : (connectUpstream state clock shuffle dials).result ≠ .panicked) {index : Nat}
    (dialed : index ∈ (connectUpstream state clock shuffle dials).dialed)
    (unsuccessful : dials.outcome index ≠ .success) :
    (connectUpstream state clock shuffle dials).state.CoolsDown index (dials.ended index) ↔
      (dials.outcome index = .pending → state.pool.cooldown = 0 ∨
        state.pool.DownUntil index (dials.ended index + state.pool.cooldown)) := by
  unfold connectUpstream at ends dialed ⊢
  obtain ⟨-, cooldown, targets⟩ := state.pool.afterCandidates_config clock
  have inside : index < (state.pool.afterCandidates clock).targets.length := by
    rw [targets]
    exact List.mem_range.mp (indices_perm.subset (dialed_inOrder.subset dialed))
  rw [coolsDown_iff (by rwa [config_dialCandidates.2]), config_dialCandidates.1]
  cases outcome : dials.outcome index with
  | success => exact absurd outcome unsuccessful
  | error message =>
      have down := downUntil_of_fails indices_nodup ends dialed inside outcome
      exact iff_of_true (.inr down) fun pending => by cases pending
  | pending =>
      simp only [UpstreamPool.DownUntil, targets_of_pending indices_nodup outcome, targets, cooldown]
      exact ⟨fun down _ => down, fun down => down trivial⟩

/-- Failover keeps its promises if and only if it records every dial that does not succeed. -/
theorem failover_iff_recorded (state : PoolState) (clock : Nat → Int) (shuffle : Shuffle) (dials : Dials)
    (ioTimeout : Nat) :
    (connectUpstream state clock shuffle dials).FailsOver state (state.pool.candidates clock shuffle) dials
        ioTimeout ↔
      dials.Recorded state.pool (state.pool.candidates clock shuffle) := by
  constructor
  · intro promised
    have ends : (connectUpstream state clock shuffle dials).result ≠ .panicked :=
      fun panicked => promised.ends (withTimeout_eq_none_iff.mpr panicked)
    constructor
    · intro candidate member none
      exact ends (connectUpstream_panicked_iff.mpr ⟨candidate, member, none⟩)
    · intro candidate found pending
      have dialed := (pending_dialed_iff ends pending).mpr ⟨candidate, found, rfl⟩
      have unsuccessful : dials.outcome candidate.index ≠ .success := by
        rw [pending]
        exact DialOutcome.noConfusion
      exact (cooled_iff ends dialed unsuccessful).mp (promised.cooled _ dialed unsuccessful) pending
  · intro recorded
    have ends : (connectUpstream state clock shuffle dials).result ≠ .panicked := by
      intro panicked
      obtain ⟨candidate, member, none⟩ := connectUpstream_panicked_iff.mp panicked
      exact recorded.instants candidate member none
    obtain ⟨-, -, targets⟩ := state.pool.afterCandidates_config clock
    constructor
    case ends => exact fun none => ends (withTimeout_eq_none_iff.mp none)
    case inOrder => exact dialed_inOrder
    case once => exact dialed_nodup indices_nodup
    case connected =>
      intro index connected
      exact dialed_of_connected (withTimeout_eq_ok connected)
    case failed =>
      intro error failed
      refine dialed_of_not_connected ends fun index connected => ?_
      rw [connectUpstream, connected] at failed
      cases failed
    case counted => exact counted_connectUpstream
    case cooled =>
      intro index dialed unsuccessful
      refine (cooled_iff ends dialed unsuccessful).mpr fun pending => ?_
      obtain ⟨candidate, found, rfl⟩ := (pending_dialed_iff ends pending).mp dialed
      exact recorded.last candidate found pending
    case untouched =>
      intro index not
      rw [connectUpstream, targets_of_not_dialed not, targets]

/-- The first of two targets does not answer before the deadline. -/
def hungDials : Dials := ⟨fun index => if index = 0 then .pending else .success, fun _ => fromSecs 40⟩

/-- A target that hangs is as healthy as before. -/
theorem hung_target_not_cooled :
    ¬ (connectUpstream twoTargets (fun _ => 0) noShuffle hungDials).FailsOver twoTargets
      (twoTargets.pool.candidates (fun _ => 0) noShuffle) hungDials (fromSecs 30) := by
  intro promised
  have down := promised.cooled 0 (by decide +kernel) (by decide) [] (List.forall_mem_nil _) (fromSecs 40)
    (le_refl _) (by decide +kernel)
  revert down
  decide +kernel

end PoolState

end AiProtect
