import AiProtect.Proxy.AuditTrail

/-! # How long a policy lives

A policy is shared by the watch of its entry, by every connection that was accepted under
it, and by its background task while a sync is under way. The task itself has only a weak
reference, and ends once that no longer gets it the policy. This module relates the count
of references to those who hold one, and shows that the task neither ends early nor keeps
a policy alive that nobody uses.
-/

namespace AiProtect

open Places Runs

/-- What the watch of an entry adds to the count of a policy. -/
def Entry.holding (reload : Reload) (handle : Nat) (entry : Entry) : Nat :=
  if reload.holds entry = true then entry.policies.count handle else 0

/-- What a connection adds while it is open. -/
def Connection.holding (handle : Nat) (connection : Connection) : Nat :=
  if connection.closed = true then 0 else connection.policies.count handle

/-- What a sync in progress adds. -/
def Slot.holding (slot : Slot) : Nat := if slot.syncing.isSome = true then 1 else 0

section Parts

variable {handle : Nat} {reload : Reload}

theorem Entry.holding_of_serving {entry : Entry} (serving : entry.serving = true) :
    entry.holding reload handle = entry.policies.count handle := by
  rw [holding, Reload.holds, serving, Bool.true_or, if_pos rfl]

theorem Entry.holding_of_live (live : reload ≠ .exited) :
    Entry.holding reload handle = fun entry : Entry => entry.policies.count handle := by
  funext entry
  rw [holding, Reload.holds, decide_eq_false live, Bool.not_false, Bool.or_true, if_pos rfl]

theorem Entry.holding_of_ended {entry : Entry} (ended : entry.serving = false) : entry.holding .exited handle = 0 := by
  rw [holding, Reload.holds, ended]
  rfl

/-- When the sending ends go, the watches that are left are those of entries that serve. -/
theorem sum_exited (live : reload ≠ .exited) (entries : List Entry) :
    (entries.map (Entry.holding reload handle)).sum = (entries.map (Entry.holding .exited handle)).sum +
      ((entries.filter fun entry => !entry.serving).flatMap Entry.policies).count handle := by
  rw [Entry.holding_of_live live]
  induction entries with
  | nil => rfl
  | cons entry entries ih =>
      simp only [List.map_cons, List.sum_cons, ih]
      by_cases serving : entry.serving = true
      · rw [List.filter_cons_of_neg (by rw [serving]; exact Bool.false_ne_true), Entry.holding_of_serving serving]
        omega
      · have ended := Bool.eq_false_iff.mpr serving
        rw [List.filter_cons_of_pos (by rw [ended]; rfl), List.flatMap_cons, List.count_append,
          Entry.holding_of_ended ended]
        omega

theorem Connection.holding_of_open {connection : Connection} (going : connection.closed = false) :
    connection.holding handle = connection.policies.count handle := by
  rw [holding, going, if_neg Bool.false_ne_true]

theorem sum_ended (handle : Nat) {connections : List Connection} {index : Nat} {connection : Connection}
    (next : Connection) (found : connections[index]? = some connection) (going : connection.closed = false)
    (ended : next.closed = true) :
    ((connections.set index next).map (Connection.holding handle)).sum + connection.policies.count handle =
      (connections.map (Connection.holding handle)).sum := by
  have moved := sum_set (Connection.holding handle) next found
  rw [Connection.holding_of_open going] at moved
  rw [moved, Connection.holding, if_pos ended, Nat.add_zero]

theorem sum_going (handle : Nat) {connections : List Connection} {index : Nat} {connection : Connection}
    (next : Connection) (found : connections[index]? = some connection) (closed : next.closed = connection.closed)
    (policies : next.policies = connection.policies) :
    ((connections.set index next).map (Connection.holding handle)).sum =
      (connections.map (Connection.holding handle)).sum := by
  have moved := sum_set (Connection.holding handle) next found
  simp only [Connection.holding, closed, policies] at moved ⊢
  omega

/-- Policies that have just been built are not syncing. -/
theorem elim_built (slots : List Slot) (policies : List ThresholdPolicy) :
    (slots ++ policies.map Slot.built)[handle]?.elim 0 Slot.holding = slots[handle]?.elim 0 Slot.holding := by
  by_cases inside : handle < slots.length
  · rw [List.getElem?_append_left inside]
  · have outside := Nat.le_of_not_lt inside
    rw [List.getElem?_append_right outside, List.getElem?_eq_none outside, List.getElem?_map]
    cases policies[handle - slots.length]? with
    | none => rfl
    | some policy => rfl

/-- A policy's reference to itself, when its slot goes on. -/
theorem elim_set (handle : Nat) {slots : List Slot} {place : Nat} {slot : Slot} (next : Slot)
    (found : slots[place]? = some slot) :
    (slots.set place next)[handle]?.elim 0 Slot.holding + [place].count handle * slot.holding =
      slots[handle]?.elim 0 Slot.holding + [place].count handle * next.holding := by
  obtain ⟨inside, -⟩ := List.getElem?_eq_some_iff.mp found
  by_cases here : place = handle
  · subst here
    rw [List.getElem?_set_self inside, found, List.count_singleton_self]
    simp only [Option.elim_some, Nat.one_mul]
    omega
  · rw [List.getElem?_set_ne here, List.count_singleton, if_neg (by simpa using here), Nat.zero_mul, Nat.zero_mul]

/-- A policy that is asked goes on syncing if it was, and keeps its store. -/
theorem Slot.evaluate_kept {slot next : Slot} {k : Nat} {action : Action} {ctx : PolicyContext} {now : Int}
    {decision : Decision} (verdict : slot.evaluate k action ctx now = (decision, next)) :
    next.holding = slot.holding ∧ next.policy.state.isSome = slot.policy.state.isSome := by
  simp only [evaluate, Prod.mk.injEq] at verdict
  obtain ⟨-, rfl⟩ := verdict
  refine ⟨rfl, ?_⟩
  cases slot.policy.evaluate_outcome action ctx now with
  | bypassed _ result | oversized _ _ result | overBudget _ _ _ result => rw [result]
  | admitted _ _ _ result => simp only [result, ThresholdPolicy.enqueue, Option.isSome_map]

theorem Slot.drain_kept {slot : Slot} (store : slot.policy.state.isSome = true) (quiet : slot.syncing = none)
    (anchor : Anchor) : (slot.drain anchor).holding = 1 ∧ (slot.drain anchor).policy.state.isSome = true := by
  obtain ⟨state, found⟩ := Option.isSome_iff_exists.mp store
  rw [drain, store, quiet]
  refine ⟨rfl, ?_⟩
  simp only [ThresholdPolicy.drain, found, Option.isNone_none, Bool.and_self, if_true, Option.isSome_some]

theorem Slot.merge_kept {slot : Slot} (syncing : slot.syncing.isSome = true) (rows : Snapshot) (now : Int) :
    (slot.merge rows now).holding = 0 ∧ (slot.merge rows now).policy.state.isSome = slot.policy.state.isSome := by
  obtain ⟨anchor, found⟩ := Option.isSome_iff_exists.mp syncing
  rw [merge, found]
  exact ⟨rfl, rfl⟩

end Parts

namespace Process

variable {connector : LdapConnector} {parse : String → Option (List PolicyEntry)} {process after : Process}

/-- How many references to a policy there are. -/
def holders (process : Process) (handle : Nat) : Nat :=
  (process.entries.map (Entry.holding process.reload handle)).sum +
    (process.connections.map (Connection.holding handle)).sum + process.slots[handle]?.elim 0 Slot.holding

/-- The references are counted, and the tasks are those of the policies that have a store
    and are still referred to. -/
structure Counted (process : Process) : Prop where
  strong : ∀ handle, process.strong handle = process.holders handle
  running : ∀ (handle : Nat) (slot : Slot), process.slots[handle]? = some slot → slot.policy.state.isSome = true →
    handle ∈ process.tasks ∨ process.strong handle = 0
  stores : ∀ handle ∈ process.tasks, ∃ slot, process.slots[handle]? = some slot ∧ slot.policy.state.isSome = true

/-- Every reference that is taken or dropped is counted. -/
theorem Change.strong {label : ProcessLabel} (change : Change connector parse process label after)
    (counted : process.Counted) (audited : process.Audited) (handle : Nat) :
    after.strong handle = after.holders handle := by
  have before := counted.strong handle
  rw [holders] at before ⊢
  cases change with
  | idle | returned _ _ _ | taskEnded _ _ _ => exact before
  | turned live again =>
      rw [Entry.holding_of_live live] at before
      rw [Entry.holding_of_live again]
      exact before
  | @replaced _ _ _ rest entry policies loading found _ _ =>
      have live : process.reload ≠ .exited := by
        rw [loading]
        exact Reload.noConfusion
      have moved := sum_set (Entry.holding process.reload handle)
        { entry with policies := (process.build policies).2 } found
      rw [Entry.holding_of_live live] at before moved
      rw [Entry.holding_of_live (Reload.onward_ne_exited rest)]
      simp only [build, elim_built, retain, release] at moved ⊢
      omega
  | @discarded _ _ _ rest _ policies loading _ _ _ =>
      have live : process.reload ≠ .exited := by
        rw [loading]
        exact Reload.noConfusion
      rw [Entry.holding_of_live live] at before
      rw [Entry.holding_of_live (Reload.onward_ne_exited rest)]
      simp only [build, elim_built, retain, release]
      omega
  | exited waiting =>
      have live : process.reload ≠ .exited := by
        rw [waiting]
        exact Reload.noConfusion
      rw [sum_exited live] at before
      simp only [release]
      omega
  | @closed index entry found serving =>
      have moved := sum_set (Entry.holding process.reload handle) { entry with serving := false } found
      rw [Entry.holding_of_serving serving] at moved
      simp only
      split
      · rename_i gone
        rw [gone] at before moved ⊢
        rw [Entry.holding_of_ended rfl] at moved
        simp only [release]
        omega
      · rename_i live
        rw [Entry.holding_of_live live] at before moved ⊢
        simp only at moved
        omega
  | @accepted index ip entry found serving =>
      have new : (Connection.accepted index entry.policies ip).holding handle = entry.policies.count handle := rfl
      simp only [List.map_append, List.sum_append, List.map_singleton, List.sum_singleton, retain, new]
      omega
  | @dropped _ _ connection bind found going _ =>
      have moved := sum_ended handle { connection with bind, judging := none, closed := true } found going rfl
      simp only [drop, release]
      omega
  | @spoke _ _ _ next found _ _ same _ _ | @logged _ _ _ _ next _ _ _ found same _ =>
      have moved := sum_going handle next found (by rw [same]) (by rw [same])
      simp only
      omega
  | @opened _ _ connection _ bind found _ _ _ =>
      have moved := sum_going handle { connection with bind, judging := some process.calls.length } found rfl rfl
      simp only
      omega
  | @passed _ _ _ _ _ next _ _ _ there verdict | @blocked _ _ _ _ _ next _ _ _ _ there verdict =>
      have moved := elim_set handle next there
      rw [(Slot.evaluate_kept verdict).1] at moved
      simp only
      omega
  | @unanswerable k call reason connection found _ unlogged there =>
      obtain ⟨-, busy, here, -, going⟩ := audited.unlogged k call found unlogged
      rw [there] at here
      cases here
      have moved := sum_ended handle { connection with judging := none, closed := true } there going rfl
      simp only [drop, release]
      omega
  | @drained place anchor slot there task quiet _ =>
      obtain ⟨same, here, store⟩ := counted.stores _ task
      rw [there] at here
      cases here
      have moved := elim_set handle (slot.drain anchor) there
      rw [(Slot.drain_kept store quiet anchor).1, Slot.holding, quiet] at moved
      simp only [retain, Option.isSome_none, Bool.false_eq_true, if_false, Nat.mul_zero, Nat.mul_one] at moved ⊢
      omega
  | @failed place slot there syncing =>
      have moved := elim_set handle slot.syncFailed there
      simp only [Slot.holding, Slot.syncFailed, syncing, Option.isSome_none, Bool.false_eq_true, if_false, if_true,
        Nat.mul_zero, Nat.mul_one] at moved
      simp only [release, Slot.syncFailed]
      omega
  | @merged place rows now slot there syncing =>
      have moved := elim_set handle (slot.merge rows now) there
      rw [(Slot.merge_kept syncing rows now).1, Slot.holding, if_pos syncing, Nat.mul_zero, Nat.mul_one] at moved
      simp only [release]
      omega

/-- Whether a policy has a store does not change. -/
theorem Change.stored {label : ProcessLabel} (change : Change connector parse process label after)
    (counted : process.Counted) :
    Grows (fun slot later : Slot => later.policy.state.isSome = slot.policy.state.isSome) process.slots
      after.slots := by
  have same : ∀ slot : Slot, slot.policy.state.isSome = slot.policy.state.isSome := fun _ => rfl
  cases change with
  | replaced _ _ _ _ | discarded _ _ _ _ => exact .append same _ _
  | passed _ _ _ there verdict | blocked _ _ _ there verdict => exact .set same there (Slot.evaluate_kept verdict).2
  | drained there task quiet _ =>
      obtain ⟨slot, here, store⟩ := counted.stores _ task
      rw [there] at here
      cases here
      exact .set same there ((Slot.drain_kept store quiet _).2.trans store.symm)
  | failed there _ => exact .set same there rfl
  | merged there syncing => exact .set same there (Slot.merge_kept syncing _ _).2
  | _ => exact .refl same _

section Unheld

variable {handle : Nat}

theorem Counted.entry_free (counted : process.Counted) (gone : process.strong handle = 0) {entry : Entry}
    (member : entry ∈ process.entries) (serving : entry.serving = true) : entry.policies.count handle = 0 := by
  have nobody := counted.strong handle
  have weight := List.single_le_sum (fun _ _ => Nat.zero_le _) _
    (List.mem_map_of_mem (f := Entry.holding process.reload handle) member)
  rw [Entry.holding_of_serving serving] at weight
  rw [gone, holders] at nobody
  omega

/-- A call that asks is the one its connection is in the middle of, and that is open. -/
theorem Counted.unasked (counted : process.Counted) (gone : process.strong handle = 0)
    (sound : process.Sound connector) (audited : process.Audited) {k : Nat} {call : Judgement}
    (found : process.calls[k]? = some call) (undecided : call.decision = none) :
    call.policies[call.next]? ≠ some handle := by
  intro asked
  have unlogged : call.logged = false := by
    cases logged : call.logged with
    | false => rfl
    | true =>
        obtain ⟨entry, recorded, rfl⟩ := List.mem_map.mp (audited.logged k call found logged)
        obtain ⟨same, decision, there, decided, -⟩ := audited.lines entry recorded
        rw [found] at there
        cases there
        rw [undecided] at decided
        cases decided
  obtain ⟨-, connection, there, -, going⟩ := audited.unlogged k call found unlogged
  obtain ⟨same, here, policies⟩ := sound.owned call (List.mem_of_getElem? found)
  rw [there] at here
  cases here
  have nobody := counted.strong handle
  have weight := List.single_le_sum (fun _ _ => Nat.zero_le _) _
    (List.mem_map_of_mem (f := Connection.holding handle) (List.mem_of_getElem? there))
  have listed := List.count_pos_iff.mpr (List.mem_of_getElem? asked)
  rw [Connection.holding_of_open going, ← policies] at weight
  rw [gone, holders] at nobody
  omega

theorem Counted.not_syncing (counted : process.Counted) (gone : process.strong handle = 0) {slot : Slot}
    (there : process.slots[handle]? = some slot) : slot.syncing.isSome ≠ true := by
  intro syncing
  have nobody := counted.strong handle
  rw [gone, holders, there, Option.elim_some, Slot.holding, if_pos syncing] at nobody
  omega

theorem count_build (policies : List ThresholdPolicy) (inside : handle < process.slots.length) :
    (process.build policies).2.count handle = 0 :=
  List.count_eq_zero.mpr fun member => Nat.not_lt.mpr (mem_build.mp member).1 inside

/-- A policy that nobody holds is neither asked nor synced, and nobody gets hold of it. -/
theorem Change.unheld {label : ProcessLabel} (change : Change connector parse process label after)
    (sound : process.Sound connector) (audited : process.Audited) (counted : process.Counted)
    (inside : handle < process.slots.length) (gone : process.strong handle = 0) :
    after.strong handle = 0 ∧ after.slots[handle]? = process.slots[handle]? := by
  cases change with
  | idle | turned _ _ | spoke _ _ _ _ _ _ | opened _ _ _ _ _ | returned _ _ _ | logged _ _ _ _ _ _ | taskEnded _ _ _ =>
      exact ⟨gone, rfl⟩
  | exited _ | dropped _ _ _ _ | unanswerable _ _ _ _ => exact ⟨by simp only [drop, release, gone, Nat.zero_sub], rfl⟩
  | replaced _ _ _ _ | discarded _ _ _ _ =>
      refine ⟨?_, List.getElem?_append_left inside⟩
      simp only [release, retain, count_build _ inside, gone, Nat.add_zero, Nat.zero_sub]
  | closed _ _ =>
      refine ⟨?_, rfl⟩
      simp only
      split
      · rw [release, gone, Nat.zero_sub]
      · exact gone
  | accepted found serving =>
      refine ⟨?_, rfl⟩
      simp only [retain, gone, counted.entry_free gone (List.mem_of_getElem? found) serving]
  | passed found undecided asked _ _ | blocked found undecided asked _ _ =>
      refine ⟨gone, List.getElem?_set_ne fun same => ?_⟩
      exact counted.unasked gone sound audited found undecided (same ▸ asked)
  | @drained place _ _ there _ _ held =>
      have apart : place ≠ handle := fun same => held (same ▸ gone)
      refine ⟨?_, List.getElem?_set_ne apart⟩
      simp only [retain, gone, List.count_singleton, beq_iff_eq, apart, if_false]
  | @failed place _ there syncing | @merged place _ _ _ there syncing =>
      have apart : place ≠ handle := by
        rintro rfl
        exact counted.not_syncing gone there syncing
      exact ⟨by simp only [release, gone, Nat.zero_sub], List.getElem?_set_ne apart⟩

end Unheld

section Tasks

/-- A policy that is built with a store gets a task, and no other does. -/
theorem build_tasks (counted : process.Counted) (policies : List ThresholdPolicy) :
    (∀ (handle : Nat) (slot : Slot), (process.build policies).1.slots[handle]? = some slot →
      slot.policy.state.isSome = true → handle ∈ (process.build policies).1.tasks ∨
        (handle < process.slots.length ∧ process.strong handle = 0)) ∧
    ∀ handle ∈ (process.build policies).1.tasks, ∃ slot, (process.build policies).1.slots[handle]? = some slot ∧
      slot.policy.state.isSome = true := by
  constructor
  · intro handle slot found store
    by_cases inside : handle < process.slots.length
    · simp only [build, List.getElem?_append_left inside] at found
      rcases counted.running handle slot found store with task | gone
      · exact .inl (List.mem_append_left _ task)
      · exact .inr ⟨inside, gone⟩
    · have new := Nat.le_of_not_lt inside
      simp only [build, List.getElem?_append_right new, List.getElem?_map] at found
      obtain ⟨policy, there, rfl⟩ := Option.map_eq_some_iff.mp found
      have bound := (List.getElem?_eq_some_iff.mp there).1
      refine .inl (List.mem_append_right _ (List.mem_filter.mpr ⟨mem_build.mpr ⟨new, by omega⟩, ?_⟩))
      rw [there]
      exact store
  · intro handle member
    rcases List.mem_append.mp member with old | new
    · obtain ⟨slot, found, store⟩ := counted.stores handle old
      exact ⟨slot, by rw [← found]; exact List.getElem?_append_left (List.getElem?_eq_some_iff.mp found).1, store⟩
    · obtain ⟨listed, store⟩ := List.mem_filter.mp new
      obtain ⟨policy, there, has⟩ := (Option.any_eq_true _ _).mp store
      obtain ⟨new, -⟩ := mem_build.mp listed
      refine ⟨Slot.built policy, ?_, has⟩
      simp only [build, List.getElem?_append_right new, List.getElem?_map, there, Option.map_some]

/-- A task ends only when nobody holds its policy. -/
theorem Change.tasks {label : ProcessLabel} (change : Change connector parse process label after) {handle : Nat}
    (task : handle ∈ process.tasks) : handle ∈ after.tasks ∨ process.strong handle = 0 := by
  cases change with
  | replaced _ _ _ _ | discarded _ _ _ _ => exact .inl (List.mem_append_left _ task)
  | @taskEnded place _ _ _ _ gone =>
      by_cases here : handle = place
      · exact .inr (here ▸ gone)
      · exact .inl ((List.mem_erase_of_ne here).mpr task)
  | _ => exact .inl task

/-- A task belongs to a policy that had one, or to one that has just been built. -/
theorem Change.tasks_cases {label : ProcessLabel} (change : Change connector parse process label after)
    (counted : process.Counted) {handle : Nat} (task : handle ∈ after.tasks) :
    ∃ slot, after.slots[handle]? = some slot ∧ slot.policy.state.isSome = true := by
  have old : handle ∈ process.tasks → ∃ slot, after.slots[handle]? = some slot ∧ slot.policy.state.isSome = true := by
    intro before
    obtain ⟨slot, found, store⟩ := counted.stores handle before
    obtain ⟨later, there, same⟩ := change.stored counted handle slot found
    exact ⟨later, there, same.trans store⟩
  cases change with
  | replaced _ _ _ _ | discarded _ _ _ _ => exact (build_tasks counted _).2 handle task
  | taskEnded _ _ _ => exact old (List.mem_of_mem_erase task)
  | _ => exact old task

theorem Change.slots_cases {label : ProcessLabel} (change : Change connector parse process label after)
    (counted : process.Counted) {handle : Nat} {slot : Slot} (found : after.slots[handle]? = some slot)
    (store : slot.policy.state.isSome = true) :
    handle ∈ after.tasks ∨ (handle < process.slots.length ∧ process.strong handle = 0) := by
  have old : handle < process.slots.length →
      handle ∈ after.tasks ∨ (handle < process.slots.length ∧ process.strong handle = 0) := by
    intro inside
    obtain ⟨later, there, same⟩ := change.stored counted handle _ (List.getElem?_eq_getElem inside)
    rw [found] at there
    cases there
    rcases counted.running handle _ (List.getElem?_eq_getElem inside) (same.symm.trans store) with task | gone
    · exact (change.tasks task).imp_right fun gone => ⟨inside, gone⟩
    · exact .inr ⟨inside, gone⟩
  have bound := (List.getElem?_eq_some_iff.mp found).1
  cases change with
  | replaced _ _ _ _ | discarded _ _ _ _ => exact (build_tasks counted _).1 handle slot found store
  | passed _ _ _ _ _ | blocked _ _ _ _ _ | drained _ _ _ _ | failed _ _ | merged _ _ =>
      exact old (by simpa only [List.length_set] using bound)
  | _ => exact old bound

end Tasks

theorem Change.counted {label : ProcessLabel} (change : Change connector parse process label after)
    (sound : process.Sound connector) (audited : process.Audited) (counted : process.Counted) : after.Counted where
  strong := change.strong counted audited
  running := by
    intro handle slot found store
    rcases change.slots_cases counted found store with task | ⟨inside, gone⟩
    · exact .inl task
    · exact .inr (change.unheld sound audited counted inside gone).1
  stores := fun _ task => change.tasks_cases counted task

theorem counted_start (configs : List (String × List ThresholdPolicy)) : (start configs).Counted := by
  refine @start_rule Counted ⟨fun _ => rfl, fun _ _ found => (by cases found), fun _ task => (by cases task)⟩ ?_ configs
  intro process config counted
  obtain ⟨running, stores⟩ := build_tasks counted config.2
  refine ⟨?_, ?_, stores⟩
  · intro handle
    have before := counted.strong handle
    have new : (⟨config.1, (process.build config.2).2, true⟩ : Entry).holding process.reload handle =
        (process.build config.2).2.count handle := Entry.holding_of_serving rfl
    simp only [addEntry, build, holders, elim_built, retain, List.map_append, List.sum_append, List.map_singleton,
      List.sum_singleton] at before new ⊢
    omega
  · intro handle slot found store
    rcases running handle slot found store with task | ⟨inside, gone⟩
    · exact .inl task
    · refine .inr ?_
      have fresh := count_build config.2 inside
      simp only [addEntry, build, retain, gone] at fresh ⊢
      omega

variable (connector parse) in
theorem always_counted (configs : List (String × List ThresholdPolicy)) (labels : List ProcessLabel) :
    Always (step connector parse) (fun process => process.Sound connector ∧ process.Audited ∧ process.Counted)
      (start configs) labels := by
  refine always_of_step ⟨sound_start configs, audited_start configs, counted_start configs⟩ ?_
  rintro process label ⟨sound, audited, counted⟩
  have change := @change connector parse process label
  exact ⟨change.sound sound, change.audited audited, change.counted sound audited counted⟩

variable (connector parse) in
/-- Once nobody refers to a policy, this stays so, and the policy stays as it is: no call
    asks it, no sync takes what it has queued, no snapshot is merged into it. -/
theorem unheld_policy_stays (configs : List (String × List ThresholdPolicy)) (labels later : List ProcessLabel)
    (handle : Nat) (inside : handle < (labels.foldl (step connector parse) (start configs)).slots.length)
    (gone : (labels.foldl (step connector parse) (start configs)).strong handle = 0) :
    ((labels ++ later).foldl (step connector parse) (start configs)).strong handle = 0 ∧
      ((labels ++ later).foldl (step connector parse) (start configs)).slots[handle]? =
        (labels.foldl (step connector parse) (start configs)).slots[handle]? := by
  induction later using List.reverseRecOn with
  | nil =>
      rw [List.append_nil]
      exact ⟨gone, rfl⟩
  | append_singleton later label ih =>
      obtain ⟨sound, audited, counted⟩ :=
        always_counted connector parse configs (labels ++ later) _ (List.prefix_refl _)
      rw [← List.append_assoc, List.foldl_append, List.foldl_cons, List.foldl_nil]
      generalize (labels ++ later).foldl (step connector parse) (start configs) = process at ih sound audited counted ⊢
      have bound : handle < process.slots.length := by
        by_contra outside
        rw [List.getElem?_eq_none (Nat.le_of_not_lt outside), List.getElem?_eq_getElem inside] at ih
        cases ih.2
      obtain ⟨still, same⟩ := (@change connector parse process label).unheld sound audited counted bound ih.1
      exact ⟨still, same.trans ih.2⟩

/-- A connection whose entry has got another file sends a request and ends, all before the
    next sync of the policy it was judged by. -/
def abandoned : List ProcessLabel :=
  [.accept 0 "10.0.0.1", .hangup, .load (some "closed") fun _ => .absent, .receive 0 Relay.deleteFrame, .advance 0 5,
    .advance 0 6, .log 0, .stop 0]

/-- What the request used is queued for the store for good: the next tick ends the task. -/
theorem abandoned_policy_stays :
    ((abandoned ++ [ProcessLabel.tick 0 ⟨7, 0⟩]).foldl (step Relay.deleteConnector twoFiles)
        (start [("ldap.toml", [⟨ThresholdPolicy.minuteConfig, .empty, some ⟨[]⟩⟩])])).tasks = [] ∧
      (((abandoned ++ [ProcessLabel.tick 0 ⟨7, 0⟩]).foldl (step Relay.deleteConnector twoFiles)
        (start [("ldap.toml", [⟨ThresholdPolicy.minuteConfig, .empty, some ⟨[]⟩⟩])])).slots[0]?.map fun slot =>
          slot.policy.state) = some (some ⟨[(⟨"ip:10.0.0.1"⟩, 5)]⟩) := by
  have stays := unheld_policy_stays Relay.deleteConnector twoFiles
    [("ldap.toml", [⟨ThresholdPolicy.minuteConfig, .empty, some ⟨[]⟩⟩])] abandoned [.tick 0 ⟨7, 0⟩] 0
    (by decide +kernel) (by decide +kernel)
  rw [stays.2]
  exact ⟨by decide +kernel, by decide +kernel⟩

end Process

end AiProtect
