import AiProtect.Lib.Places
import AiProtect.Proxy.Process
import AiProtect.Proxy.Rejection

/-! # Reloading policy files

A connection is judged by the list its entry had when it was accepted. The theorem of this
module says which list that is: the one of the last file that loaded for this entry before
the connection came, table by table in the file's order. Files that do not load, files of
other entries, and whatever is loaded later leave it alone.
-/

namespace AiProtect

open Places Runs

/-- Where a connection came from, and what it is judged by. -/
def Connection.SameOrigin (connection later : Connection) : Prop :=
  later.entry = connection.entry ∧ later.policies = connection.policies

theorem Connection.sameOrigin (connection : Connection) : connection.SameOrigin connection := ⟨rfl, rfl⟩

def Slot.SameConfig (slot later : Slot) : Prop := later.policy.config = slot.policy.config

theorem Slot.sameConfig (slot : Slot) : slot.SameConfig slot := rfl

namespace Process

variable {connector : LdapConnector} {parse : String → Option (List PolicyEntry)}

/-- What no step changes. -/
structure Extends (before after : Process) : Prop where
  connections : Grows Connection.SameOrigin before.connections after.connections
  slots : Grows Slot.SameConfig before.slots after.slots

theorem evaluate_config {slot after : Slot} {k : Nat} {action : Action} {ctx : PolicyContext} {now : Int}
    {decision : Decision} (verdict : slot.evaluate k action ctx now = (decision, after)) :
    after.policy.config = slot.policy.config := by
  simp only [Slot.evaluate, Prod.mk.injEq] at verdict
  rw [← verdict.2]
  exact slot.policy.evaluate_config action ctx now

theorem drain_config (slot : Slot) (anchor : Anchor) : (slot.drain anchor).policy.config = slot.policy.config := by
  simp only [Slot.drain, ThresholdPolicy.drain]
  split
  · split <;> rfl
  · rfl

theorem merge_config (slot : Slot) (rows : Snapshot) (now : Int) :
    (slot.merge rows now).policy.config = slot.policy.config := by
  simp only [Slot.merge]
  split <;> rfl

theorem Change.extends {process after : Process} {label : ProcessLabel}
    (change : Change connector parse process label after) : Extends process after := by
  have connections := Grows.refl Connection.sameOrigin process.connections
  have slots := Grows.refl Slot.sameConfig process.slots
  cases change with
  | idle | turned _ _ | exited _ | closed _ _ | returned _ _ | taskEnded _ _ _ => exact ⟨connections, slots⟩
  | replaced _ _ _ _ | discarded _ _ _ _ => exact ⟨connections, .append Slot.sameConfig _ _⟩
  | accepted _ _ => exact ⟨.append Connection.sameOrigin _ _, slots⟩
  | dropped _ found _ _ | opened _ found _ _ _ | unanswerable _ _ _ found =>
      exact ⟨.set Connection.sameOrigin found ⟨rfl, rfl⟩, slots⟩
  | spoke found _ _ same _ _ | logged _ _ _ found same _ =>
      refine ⟨.set Connection.sameOrigin found ?_, slots⟩
      rw [same]
      exact ⟨rfl, rfl⟩
  | passed _ _ _ there verdict | blocked _ _ _ there verdict =>
      exact ⟨connections, .set Slot.sameConfig there (evaluate_config verdict)⟩
  | drained there _ _ _ => exact ⟨connections, .set Slot.sameConfig there (drain_config _ _)⟩
  | failed there _ => exact ⟨connections, .set Slot.sameConfig there rfl⟩
  | merged there _ => exact ⟨connections, .set Slot.sameConfig there (merge_config _ _ _)⟩

/-- The configurations of the policies in a list. -/
def configs (process : Process) (handles : List Nat) : List (Option ThresholdConfig) :=
  handles.map fun handle => process.slots[handle]?.map fun slot => slot.policy.config

theorem Extends.configs {before after : Process} (extension : Extends before after) {handles : List Nat}
    (built : ∀ handle ∈ handles, handle < before.slots.length) : after.configs handles = before.configs handles := by
  apply List.map_congr_left
  intro handle member
  obtain ⟨later, found, same⟩ := extension.slots handle _ (List.getElem?_eq_getElem (built handle member))
  rw [found, List.getElem?_eq_getElem (built handle member), Option.map_some, Option.map_some, same]

theorem Extends.length {before after : Process} (extension : Extends before after) :
    before.slots.length ≤ after.slots.length := by
  by_contra fewer
  have inside : after.slots.length < before.slots.length := by omega
  obtain ⟨later, found, -⟩ := extension.slots _ _ (List.getElem?_eq_getElem inside)
  rw [List.getElem?_eq_none (Nat.le_refl _)] at found
  cases found

/-- The lists that are handed out name policies that exist, none of them twice. -/
structure Listed (process : Process) : Prop where
  offered : ∀ entry ∈ process.entries, entry.policies.Nodup ∧ ∀ handle ∈ entry.policies, handle < process.slots.length
  taken : ∀ connection ∈ process.connections, connection.policies.Nodup ∧
    ∀ handle ∈ connection.policies, handle < process.slots.length

theorem length_build (process : Process) (policies : List ThresholdPolicy) :
    (process.build policies).1.slots.length = process.slots.length + policies.length := by
  simp only [build, List.length_append, List.length_map]

theorem mem_build {process : Process} {policies : List ThresholdPolicy} {handle : Nat} :
    handle ∈ (process.build policies).2 ↔
      process.slots.length ≤ handle ∧ handle < process.slots.length + policies.length := by
  simp only [build, List.mem_range'_1]

theorem Listed.of_extends {before after : Process} (listed : before.Listed) (extension : Extends before after)
    (entries : ∀ entry ∈ after.entries, (∃ old ∈ before.entries, old.policies = entry.policies) ∨
      (entry.policies.Nodup ∧ ∀ handle ∈ entry.policies, handle < after.slots.length))
    (connections : ∀ connection ∈ after.connections, (∃ old ∈ before.connections, old.policies = connection.policies) ∨
      ∃ entry ∈ before.entries, entry.policies = connection.policies) : after.Listed := by
  constructor
  · intro entry member
    rcases entries entry member with ⟨old, before, same⟩ | fresh
    · obtain ⟨distinct, built⟩ := listed.offered old before
      rw [← same]
      exact ⟨distinct, fun handle inside => Nat.lt_of_lt_of_le (built handle inside) extension.length⟩
    · exact fresh
  · intro connection member
    rcases connections connection member with ⟨old, before, same⟩ | ⟨old, before, same⟩
    · obtain ⟨distinct, built⟩ := listed.taken old before
      rw [← same]
      exact ⟨distinct, fun handle inside => Nat.lt_of_lt_of_le (built handle inside) extension.length⟩
    · obtain ⟨distinct, built⟩ := listed.offered old before
      rw [← same]
      exact ⟨distinct, fun handle inside => Nat.lt_of_lt_of_le (built handle inside) extension.length⟩

theorem Change.listed {process after : Process} {label : ProcessLabel}
    (change : Change connector parse process label after) (listed : process.Listed) : after.Listed := by
  have extension := change.extends
  have entries : ∀ entry ∈ process.entries, (∃ old ∈ process.entries, old.policies = entry.policies) ∨
      (entry.policies.Nodup ∧ ∀ handle ∈ entry.policies, handle < after.slots.length) :=
    fun entry member => .inl ⟨entry, member, rfl⟩
  have connections : ∀ connection ∈ process.connections,
      (∃ old ∈ process.connections, old.policies = connection.policies) ∨
      ∃ entry ∈ process.entries, entry.policies = connection.policies :=
    fun connection member => .inl ⟨connection, member, rfl⟩
  cases change with
  | idle | turned _ _ | exited _ | returned _ _ | taskEnded _ _ _ | passed _ _ _ _ _ | blocked _ _ _ _ _
  | drained _ _ _ _ | failed _ _ | merged _ _ | discarded _ _ _ _ =>
      exact listed.of_extends extension entries connections
  | @replaced _ _ index _ entry policies _ found _ _ =>
      refine listed.of_extends extension ?_ connections
      intro other member
      rcases List.mem_or_eq_of_mem_set member with old | rfl
      · exact .inl ⟨other, old, rfl⟩
      · refine .inr ⟨List.nodup_range', fun handle inside => ?_⟩
        simp only [length_build]
        exact (mem_build.mp inside).2
  | closed found _ =>
      refine listed.of_extends extension ?_ connections
      intro other member
      rcases List.mem_or_eq_of_mem_set member with old | rfl
      · exact .inl ⟨other, old, rfl⟩
      · exact .inl ⟨_, List.mem_of_getElem? found, rfl⟩
  | accepted found _ =>
      refine listed.of_extends extension entries ?_
      intro connection member
      rcases List.mem_append.mp member with old | new
      · exact connections connection old
      · rw [List.mem_singleton.mp new]
        exact .inr ⟨_, List.mem_of_getElem? found, rfl⟩
  | dropped _ found _ _ | opened _ found _ _ _ | unanswerable _ _ _ found =>
      refine listed.of_extends extension entries ?_
      intro connection member
      rcases List.mem_or_eq_of_mem_set member with old | rfl
      · exact connections connection old
      · exact .inl ⟨_, List.mem_of_getElem? found, rfl⟩
  | spoke found _ _ same _ _ | logged _ _ _ found same _ =>
      refine listed.of_extends extension entries ?_
      intro connection member
      rcases List.mem_or_eq_of_mem_set member with old | rfl
      · exact connections connection old
      · refine .inl ⟨_, List.mem_of_getElem? found, ?_⟩
        rw [same]

theorem listed_start (configs : List (String × List ThresholdPolicy)) : (start configs).Listed := by
  refine (@start_rule (fun process => process.Listed ∧ process.connections = []) ?_ ?_ configs).1
  · exact ⟨⟨fun _ member => absurd member List.not_mem_nil, fun _ member => absurd member List.not_mem_nil⟩, rfl⟩
  · rintro process config ⟨listed, none⟩
    refine ⟨⟨?_, ?_⟩, none⟩
    · intro entry member
      simp only [addEntry] at member ⊢
      rw [length_build]
      rcases List.mem_append.mp member with old | new
      · obtain ⟨distinct, built⟩ := listed.offered entry old
        exact ⟨distinct, fun handle inside => Nat.lt_of_lt_of_le (built handle inside) (Nat.le_add_right _ _)⟩
      · rw [List.mem_singleton.mp new]
        exact ⟨List.nodup_range', fun handle inside => (mem_build.mp inside).2⟩
    · intro connection member
      simp only [addEntry, build, none, List.not_mem_nil] at member

section Loading

variable (parse) in
/-- The tables a step installs in an entry. -/
def loads (process : Process) (label : ProcessLabel) (index : Nat) : Option (List PolicyEntry) :=
  match label, process.reload with
  | .load (some raw) _, .loading (next :: _) =>
      if next = index ∧ process.entries[next]?.any Entry.serving = true then parse raw else none
  | _, _ => none

/-- The configurations of the new policies are those of the tables, in order. -/
theorem configs_build (process : Process) (entries : List PolicyEntry) (db : Nat → ThresholdPolicy.StateDb) :
    (process.build (entries.mapIdx fun index entry => entry.build (db index))).1.configs
        (process.build (entries.mapIdx fun index entry => entry.build (db index))).2 =
      entries.map fun entry => some entry.config := by
  apply List.ext_getElem?
  intro place
  simp only [configs, build, List.getElem?_map, List.length_mapIdx]
  by_cases inside : place < entries.length
  · rw [List.getElem?_range' inside, List.getElem?_eq_getElem inside, Option.map_some, Option.map_some,
      Nat.one_mul, List.getElem?_append_right (Nat.le_add_right _ _), Nat.add_sub_cancel_left, List.getElem?_map,
      List.getElem?_mapIdx, List.getElem?_eq_getElem inside]
    simp only [Option.map_some, Slot.built, PolicyEntry.build_config]
  · have beyond : (List.range' process.slots.length entries.length)[place]? = none := by
      rw [List.getElem?_eq_none_iff, List.length_range']
      exact Nat.le_of_not_lt inside
    rw [beyond, List.getElem?_eq_none (Nat.le_of_not_lt inside), Option.map_none, Option.map_none]

/-- A step that is no load leaves the lists of the entries. -/
theorem entry_of_change {process after : Process} {label : ProcessLabel}
    (change : Change connector parse process label after) (unlike : ∀ contents db, label ≠ .load contents db)
    {index : Nat} {entry : Entry} (found : process.entries[index]? = some entry) :
    ∃ later, after.entries[index]? = some later ∧ later.policies = entry.policies := by
  cases change with
  | replaced _ _ _ _ | discarded _ _ _ _ => exact absurd rfl (unlike _ _)
  | @closed other _ there _ =>
      by_cases here : other = index
      · subst here
        rw [found] at there
        cases there
        obtain ⟨inside, -⟩ := List.getElem?_eq_some_iff.mp found
        exact ⟨_, List.getElem?_set_self inside, rfl⟩
      · exact ⟨entry, by rw [List.getElem?_set_ne here, found], rfl⟩
  | _ => exact ⟨entry, found, rfl⟩

/-- A load for another entry, or one that fails, leaves the list of an entry alone. -/
theorem load_elsewhere {process : Process} {contents : Option String} {db : Nat → ThresholdPolicy.StateDb} {index : Nat}
    {entry : Entry} (found : process.entries[index]? = some entry)
    (elsewhere : ∀ rest, process.reload = .loading (index :: rest) →
      contents.bind parse = none ∨ entry.serving = false) :
    process.loads parse (.load contents db) index = none ∧
      (process.load parse contents db).entries[index]? = some entry := by
  cases reload : process.reload with
  | waiting | exited =>
      cases contents <;> exact ⟨by simp only [loads, reload], by simpa only [load, reload] using found⟩
  | loading rest =>
      cases rest with
      | nil => cases contents <;> exact ⟨by simp only [loads, reload], by simpa only [load, reload] using found⟩
      | cons next rest =>
          by_cases here : next = index
          · subst here
            have fails := elsewhere rest reload
            constructor
            · cases contents with
              | none => simp only [loads]
              | some raw =>
                  simp only [loads, reload, found, Option.any_some, true_and]
                  rcases fails with unread | idle
                  · rw [show parse raw = none from unread, ite_self]
                  · rw [idle, if_neg Bool.false_ne_true]
            · simp only [load, reload, found]
              split
              · exact found
              · rename_i policies loaded
                rcases fails with unread | idle
                · rcases @loadPolicies_eq parse entry.file contents db with ⟨-, error, failed⟩ | ⟨_, read, -⟩
                  · rw [failed] at loaded
                    cases loaded
                  · rw [unread] at read
                    cases read
                · simp only [send, idle, Bool.false_eq_true, if_false]
                  exact found
          · constructor
            · cases contents with
              | none => simp only [loads]
              | some raw => simp only [loads, reload, here, false_and, if_false]
            · simp only [load, reload]
              split
              · exact found
              · split
                · exact found
                · simp only [send]
                  split
                  · rw [List.getElem?_set_ne here, found]
                  · exact found

/-- A load that succeeds gives its entry the tables of the file. -/
theorem load_here {process : Process} {contents : Option String} {db : Nat → ThresholdPolicy.StateDb} {index : Nat}
    {rest : List Nat} {entry : Entry} {entries : List PolicyEntry} (found : process.entries[index]? = some entry)
    (reload : process.reload = .loading (index :: rest)) (read : contents.bind parse = some entries)
    (serving : entry.serving = true) :
    process.loads parse (.load contents db) index = some entries ∧
      ∃ later, (process.load parse contents db).entries[index]? = some later ∧
        (process.load parse contents db).configs later.policies = entries.map fun entry => some entry.config := by
  obtain ⟨inside, -⟩ := List.getElem?_eq_some_iff.mp found
  obtain ⟨raw, rfl, parsed⟩ := Option.bind_eq_some_iff.mp read
  have loaded : loadPolicies parse entry.file (some raw) db =
      .ok (entries.mapIdx fun index entry => entry.build (db index)) := by
    simp only [loadPolicies, parsed]
  have built := process.configs_build entries db
  refine ⟨by simp only [loads, reload, found, Option.any_some, serving, and_self, if_true, parsed], ?_⟩
  simp only [load, reload, found, loaded, send, serving, if_true]
  exact ⟨_, List.getElem?_set_self inside, built⟩

theorem entry_step {process : Process} {label : ProcessLabel} {index : Nat} {entry : Entry}
    (found : process.entries[index]? = some entry) :
    ∃ later, (process.step connector parse label).entries[index]? = some later ∧
      ((process.loads parse label index = none ∧ later.policies = entry.policies) ∨
        ∃ built, process.loads parse label index = some built ∧
          (process.step connector parse label).configs later.policies = built.map fun entry => some entry.config) := by
  by_cases loading : ∃ contents db, label = .load contents db
  · obtain ⟨contents, db, rfl⟩ := loading
    by_cases here : ∃ rest, process.reload = .loading (index :: rest)
    · obtain ⟨rest, reload⟩ := here
      by_cases fails : contents.bind parse = none ∨ entry.serving = false
      · obtain ⟨none, kept⟩ := @load_elsewhere parse process contents db index entry found fun _ _ => fails
        exact ⟨entry, kept, .inl ⟨none, rfl⟩⟩
      · simp only [not_or, Bool.not_eq_false] at fails
        obtain ⟨entries, read⟩ := Option.ne_none_iff_exists'.mp fails.1
        obtain ⟨some, later, now, built⟩ :=
          @load_here parse process contents db index rest entry entries found reload read fails.2
        exact ⟨later, now, .inr ⟨entries, some, built⟩⟩
    · obtain ⟨none, kept⟩ := @load_elsewhere parse process contents db index entry found
        fun rest reload => absurd ⟨rest, reload⟩ here
      exact ⟨entry, kept, .inl ⟨none, rfl⟩⟩
  · have unlike : ∀ contents db, label ≠ .load contents db :=
      fun contents db same => loading ⟨contents, db, same⟩
    have none : process.loads parse label index = none := by
      cases label with
      | load contents db => exact absurd rfl (unlike contents db)
      | _ => rfl
    obtain ⟨later, now, same⟩ := entry_of_change (@change connector parse process label) unlike found
    exact ⟨later, now, .inl ⟨none, same⟩⟩

end Loading

section Runs

variable (connector parse) in
/-- The configurations an entry has after a run: those of the last file that loaded for it,
    or those it started with if none has. -/
def Installed (process : Process) (labels : List ProcessLabel) (index : Nat)
    (configurations : List (Option ThresholdConfig)) : Prop :=
  (∃ earlier label later built, labels = earlier ++ label :: later ∧
      (earlier.foldl (step connector parse) process).loads parse label index = some built ∧
      EachStep (step connector parse) (fun current next => current.loads parse next index = none)
        ((earlier ++ [label]).foldl (step connector parse) process) later ∧
      configurations = built.map fun entry => some entry.config) ∨
    (EachStep (step connector parse) (fun current next => current.loads parse next index = none) process labels ∧
      ∃ entry, process.entries[index]? = some entry ∧ configurations = process.configs entry.policies)

theorem eachStep_snoc {process : Process} {labels : List ProcessLabel} {label : ProcessLabel} {index : Nat}
    (each : EachStep (step connector parse) (fun current next => current.loads parse next index = none) process labels)
    (quiet : (labels.foldl (step connector parse) process).loads parse label index = none) :
    EachStep (step connector parse) (fun current next => current.loads parse next index = none) process
      (labels ++ [label]) := by
  intro before next inside
  rcases List.prefix_concat_iff.mp inside with whole | part
  · obtain ⟨rfl, last⟩ := List.append_inj' whole rfl
    cases last
    exact quiet
  · exact each before next part

theorem Installed.snoc {process : Process} {labels : List ProcessLabel} {label : ProcessLabel} {index : Nat}
    {configurations : List (Option ThresholdConfig)}
    (installed : Installed connector parse process labels index configurations)
    (quiet : (labels.foldl (step connector parse) process).loads parse label index = none) :
    Installed connector parse process (labels ++ [label]) index configurations := by
  rcases installed with ⟨earlier, last, later, built, rfl, loaded, since, same⟩ | ⟨never, same⟩
  · refine .inl ⟨earlier, last, later ++ [label], built, ?_, loaded, eachStep_snoc since ?_, same⟩
    · rw [List.append_assoc, List.cons_append]
    · rw [← List.foldl_append, List.append_assoc, List.singleton_append]
      exact quiet
  · exact .inr ⟨eachStep_snoc never quiet, same⟩

variable (connector parse) in
theorem always_listed (configs : List (String × List ThresholdPolicy)) (labels : List ProcessLabel) :
    Always (step connector parse) Listed (start configs) labels :=
  always_of_step (listed_start configs) fun process label listed => (process.change label).listed listed

theorem length_entries {process after : Process} {label : ProcessLabel}
    (change : Change connector parse process label after) : after.entries.length = process.entries.length := by
  cases change with
  | replaced _ _ _ _ | closed _ _ => exact List.length_set
  | _ => rfl

variable (connector parse) in
/-- Every entry has, at any time, the list of the last file that loaded for it. -/
theorem entry_installed (configs : List (String × List ThresholdPolicy)) (labels : List ProcessLabel) {index : Nat}
    {entry : Entry} (found : (labels.foldl (step connector parse) (start configs)).entries[index]? = some entry) :
    Installed connector parse (start configs) labels index
      ((labels.foldl (step connector parse) (start configs)).configs entry.policies) := by
  induction labels using List.reverseRecOn generalizing entry with
  | nil => exact .inr ⟨eachStep_nil, entry, found, rfl⟩
  | append_singleton labels label ih =>
      rw [List.foldl_append, List.foldl_cons, List.foldl_nil] at found ⊢
      have listed := always_listed connector parse configs labels labels (List.prefix_refl labels)
      generalize current : labels.foldl (step connector parse) (start configs) = process at found ih listed ⊢
      have change := @change connector parse process label
      obtain ⟨inside, -⟩ := List.getElem?_eq_some_iff.mp found
      rw [length_entries change] at inside
      have before := List.getElem?_eq_getElem inside
      obtain ⟨later, now, outcome⟩ := @entry_step connector parse process label index _ before
      rw [found] at now
      cases now
      rcases outcome with ⟨quiet, same⟩ | ⟨built, loaded, installed⟩
      · have kept := change.extends.configs (listed.offered _ (List.mem_of_getElem? before)).2
        rw [same, kept]
        exact (ih before).snoc (by rw [current, quiet])
      · exact .inl ⟨labels, label, [], built, rfl, by rw [current, loaded], eachStep_nil, installed⟩

/-- A connection that is there was there before, or was accepted by the step. -/
theorem connection_of_change {process after : Process} {label : ProcessLabel}
    (change : Change connector parse process label after) {index : Nat} {connection : Connection}
    (found : after.connections[index]? = some connection) :
    (∃ before, process.connections[index]? = some before ∧ before.SameOrigin connection) ∨
      ∃ ip entry, label = .accept connection.entry ip ∧ index = process.connections.length ∧
        process.entries[connection.entry]? = some entry ∧ entry.policies = connection.policies := by
  cases change with
  | accepted there _ =>
      rcases getElem?_snoc_cases found with old | ⟨last, rfl⟩
      · exact .inl ⟨connection, old, connection.sameOrigin⟩
      · exact .inr ⟨_, _, rfl, last, there, rfl⟩
  | dropped _ there _ _ | opened _ there _ _ _ | unanswerable _ _ _ there =>
      rcases getElem?_set_cases found with ⟨rfl, rfl⟩ | ⟨-, old⟩
      · exact .inl ⟨_, there, ⟨rfl, rfl⟩⟩
      · exact .inl ⟨connection, old, connection.sameOrigin⟩
  | spoke there _ _ same _ _ | logged _ _ _ there same _ =>
      rcases getElem?_set_cases found with ⟨rfl, rfl⟩ | ⟨-, old⟩
      · refine .inl ⟨_, there, ?_⟩
        rw [same]
        exact ⟨rfl, rfl⟩
      · exact .inl ⟨connection, old, connection.sameOrigin⟩
  | _ => exact .inl ⟨connection, found, connection.sameOrigin⟩

/-- A policy that admits nothing. -/
def closedConfig : ThresholdConfig := { ThresholdPolicy.minuteConfig with maxPerRequest := 0 }

/-- A parser that knows two files. -/
def twoFiles (raw : String) : Option (List PolicyEntry) :=
  if raw = "closed" then some [.threshold closedConfig false]
  else if raw = "open" then some []
  else none

/-- An entry starts out with the minute policy, and gets the closed one. A connection comes,
    and after it a file that does not parse and one without policies. -/
def reloads : List ProcessLabel :=
  [.hangup, .load (some "closed") fun _ => .absent, .accept 0 "10.0.0.1", .hangup,
    .load (some "[[policy") fun _ => .absent, .hangup, .load (some "open") fun _ => .absent]

end Runs

end Process

end AiProtect
