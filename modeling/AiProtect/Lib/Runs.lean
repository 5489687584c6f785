import Mathlib.Data.List.Infix

/-! # Labelled runs and invariants along them

A system is a step function on a state type, whose labels resolve every choice.
Invariants are proved one step at a time and carried over whole runs by the rules of
this module; `always_iff_eachStep` is the exact form, for an invariant whose
preservation by one step has a known condition.
-/

universe u v w

namespace Runs

variable {σ : Type u} {ℓ : Type v}

variable (step : σ → ℓ → σ) (holds : σ → Prop) (keeps : σ → ℓ → Prop)

/-- `holds` in every state a run of the step function passes through. -/
def Always (s : σ) (labels : List ℓ) : Prop :=
  ∀ before, before <+: labels → holds (before.foldl step s)

/-- `keeps` at every step of the run, read in the state before that step. -/
def EachStep (s : σ) (labels : List ℓ) : Prop :=
  ∀ before label, before ++ [label] <+: labels → keeps (before.foldl step s) label

variable {step holds keeps}

/-- What always holds, holds before every step. -/
theorem Always.before {s : σ} {labels : List ℓ} (always : Always step holds s labels) :
    EachStep step (fun a _ => holds a) s labels :=
  fun before label inside => always before ((List.prefix_append before [label]).trans inside)

/-- When a guarded step keeps the invariant exactly if it meets `keeps`, the invariant
    holds along a guarded run exactly if every step of the run meets `keeps`. -/
theorem always_iff_eachStep_of_guard {guard : σ → ℓ → Prop} {s : σ} {labels : List ℓ} (start : holds s)
    (guarded : EachStep step guard s labels)
    (exact_step : ∀ a, holds a → ∀ label ∈ labels, guard a label → (holds (step a label) ↔ keeps a label)) :
    Always step holds s labels ↔ EachStep step keeps s labels := by
  constructor
  · intro always before label inside
    have member : label ∈ labels := inside.subset (by simp)
    have here := always.before before label inside
    have next := always (before ++ [label]) inside
    rw [List.foldl_append, List.foldl_cons, List.foldl_nil] at next
    exact (exact_step _ here label member (guarded before label inside)).mp next
  · intro each before inside
    induction before using List.reverseRecOn with
    | nil => exact start
    | append_singleton before label ih =>
        have member : label ∈ labels := inside.subset (by simp)
        have here := ih ((List.prefix_append before [label]).trans inside)
        rw [List.foldl_append, List.foldl_cons, List.foldl_nil]
        exact (exact_step _ here label member (guarded before label inside)).mpr (each before label inside)

theorem always_iff_eachStep {s : σ} {labels : List ℓ} (start : holds s)
    (exact_step : ∀ a, holds a → ∀ label ∈ labels, (holds (step a label) ↔ keeps a label)) :
    Always step holds s labels ↔ EachStep step keeps s labels := by
  have unguarded : EachStep step (fun _ _ => True) s labels := fun _ _ _ => trivial
  exact always_iff_eachStep_of_guard start unguarded fun a here label member _ => exact_step a here label member

/-- The rule for guarded runs: the invariant needs to be kept only by steps that meet `keeps`. -/
theorem EachStep.always {s : σ} {labels : List ℓ} (each : EachStep step keeps s labels) (start : holds s)
    (kept : ∀ a label, holds a → keeps a label → holds (step a label)) : Always step holds s labels := by
  intro before inside
  induction before using List.reverseRecOn with
  | nil => exact start
  | append_singleton before label ih =>
      have here := ih ((List.prefix_append before [label]).trans inside)
      rw [List.foldl_append, List.foldl_cons, List.foldl_nil]
      exact kept _ _ here (each before label inside)

/-- The rule for an invariant that every step keeps. -/
theorem always_of_step {s : σ} {labels : List ℓ} (start : holds s)
    (kept : ∀ a label, holds a → holds (step a label)) : Always step holds s labels := by
  have unguarded : EachStep step (fun _ _ => True) s labels := fun _ _ _ => trivial
  exact unguarded.always start fun a label here _ => kept a label here

theorem EachStep.invariant {s : σ} {labels : List ℓ} (each : EachStep step keeps s labels) (start : holds s)
    (kept : ∀ a label, holds a → keeps a label → holds (step a label)) : holds (labels.foldl step s) :=
  each.always start kept labels (List.prefix_refl labels)

/-- The steps of a later part of the run. -/
theorem EachStep.later {s : σ} {labels before later : List ℓ} (each : EachStep step keeps s labels)
    (inside : before ++ later <+: labels) : EachStep step keeps (before.foldl step s) later := by
  intro earlier label within
  rw [← List.foldl_append]
  refine each (before ++ earlier) label ?_
  rw [List.append_assoc]
  exact ((List.prefix_append_right_inj before).mpr within).trans inside

theorem eachStep_nil {s : σ} : EachStep step keeps s [] := by
  intro before label inside
  have empty := List.prefix_nil.mp inside
  simp at empty

theorem eachStep_cons {s : σ} {label : ℓ} {labels : List ℓ} :
    EachStep step keeps s (label :: labels) ↔
      keeps s label ∧ EachStep step keeps (step s label) labels := by
  constructor
  · intro each
    refine ⟨each [] label ⟨labels, rfl⟩, ?_⟩
    intro before next inside
    exact each (label :: before) next (List.prefix_cons_inj label |>.mpr inside)
  · rintro ⟨here, each⟩ before next inside
    cases before with
    | nil =>
        obtain ⟨rfl, -⟩ := List.cons_prefix_cons.mp inside
        exact here
    | cons head before =>
        obtain ⟨rfl, rest⟩ := List.cons_prefix_cons.mp inside
        exact each before next rest

/-- When no step raises a measure and each step of its owner lowers it, the owner's steps
    are taken off it, in whatever order they come. -/
theorem measure_of_turns {s : σ} {labels : List ℓ} {measure : σ → Nat} {mine : ℓ → Bool} (start : holds s)
    (kept : ∀ a label, holds a → holds (step a label))
    (steady : ∀ a label, holds a → measure (step a label) ≤ measure a)
    (lowers : ∀ a label, holds a → mine label = true → measure (step a label) ≤ measure a - 1) :
    measure (labels.foldl step s) ≤ measure s - labels.countP mine := by
  induction labels generalizing s with
  | nil => exact Nat.le_refl _
  | cons label rest ih =>
      have later := ih (kept s label start)
      rw [List.foldl_cons, List.countP_cons]
      by_cases own : mine label = true
      · have lower := lowers s label start own
        rw [if_pos own]
        omega
      · have bound := steady s label start
        rw [if_neg own]
        omega

section Emitted

variable {ε : Type w} (step) (emit : σ → ℓ → List ε)

/-- What the steps of a run emit, each read in the state before it. -/
def emits (s : σ) : List ℓ → List ε
  | [] => []
  | label :: rest => emit s label ++ emits (step s label) rest

variable {step emit}

theorem emits_snoc (s : σ) (labels : List ℓ) (label : ℓ) :
    emits step emit s (labels ++ [label]) = emits step emit s labels ++ emit (labels.foldl step s) label := by
  induction labels generalizing s with
  | nil => exact List.append_nil _
  | cons first rest ih =>
      rw [List.cons_append, emits, emits, ih, List.append_assoc, List.foldl_cons]

/-- A component that takes the steps emitted goes through a run of its own. -/
theorem foldl_emits {τ : Type*} (part : σ → τ) {inner : τ → ε → τ}
    (each : ∀ s label, part (step s label) = (emit s label).foldl inner (part s)) (s : σ) (labels : List ℓ) :
    part (labels.foldl step s) = (emits step emit s labels).foldl inner (part s) := by
  induction labels generalizing s with
  | nil => rfl
  | cons label rest ih => rw [List.foldl_cons, ih, each, emits, List.foldl_append]

end Emitted

end Runs
