import Mathlib.Data.List.Infix

/-! # Searching a text

The first occurrence of a pattern and the last occurrence of an element, as positions. A
pattern that does not overlap itself is found where it was put, behind any text that does
not have it.
-/

namespace AiProtect

namespace Search

variable {α : Type*} [DecidableEq α]

/-- Where `pattern` first stands in a text. -/
def find (pattern : List α) : List α → Option Nat
  | [] => if pattern = [] then some 0 else none
  | first :: rest => if pattern <+: first :: rest then some 0 else (find pattern rest).map (· + 1)

/-- Where `element` last stands in a text. -/
def rfind (element : α) : List α → Option Nat
  | [] => none
  | first :: rest =>
      match rfind element rest with
      | some position => some (position + 1)
      | none => if first = element then some 0 else none

/-- No start of the pattern is an end of it, the whole pattern aside. -/
def Unbordered (pattern : List α) : Prop :=
  ∀ shift < pattern.length, 0 < shift → ¬ pattern.drop shift <+: pattern

instance (pattern : List α) : Decidable (Unbordered pattern) :=
  inferInstanceAs (Decidable (∀ shift < pattern.length, _))

variable {pattern text rest : List α} {element : α}

omit [DecidableEq α] in
/-- An occurrence that starts in the text before the pattern lies in that text. -/
theorem not_prefix_of_unbordered (unbordered : Unbordered pattern) (nonempty : text ≠ [])
    (absent : ¬ pattern <+: text) : ¬ pattern <+: text ++ (pattern ++ rest) := by
  intro occurs
  rcases List.prefix_or_prefix_of_prefix occurs (List.prefix_append text _) with inside | beyond
  · exact absent inside
  · obtain ⟨tail, split⟩ := beyond
    have overlap : tail <+: pattern ++ rest := by
      apply (List.prefix_append_right_inj text).mp
      rw [split]
      exact occurs
    have shorter : tail.length ≤ pattern.length := by
      rw [← split, List.length_append]
      exact Nat.le_add_left _ _
    have border : tail <+: pattern :=
      List.prefix_of_prefix_length_le overlap (List.prefix_append pattern rest) shorter
    have positive := List.length_pos_of_ne_nil nonempty
    by_cases within : text.length < pattern.length
    · apply unbordered text.length within positive
      rw [← split, List.drop_left, split]
      exact border
    · have whole : tail = [] := by
        apply List.eq_nil_of_length_eq_zero
        have sum := congrArg List.length split
        rw [List.length_append] at sum
        omega
      rw [whole, List.append_nil] at split
      exact absent (split ▸ List.prefix_refl text)

/-- A pattern is found where it was put. -/
theorem find_append (unbordered : Unbordered pattern) (absent : ¬ pattern <:+: text) :
    find pattern (text ++ (pattern ++ rest)) = some text.length := by
  induction text with
  | nil =>
      rw [List.nil_append, List.length_nil]
      cases pattern with
      | nil => exact absurd List.nil_infix absent
      | cons first pattern => exact if_pos (List.prefix_append _ _)
  | cons first text ih =>
      have notHere : ¬ pattern <+: first :: text ++ (pattern ++ rest) :=
        not_prefix_of_unbordered unbordered (List.cons_ne_nil _ _) fun here => absent here.isInfix
      have later := ih fun inside => absent (List.infix_cons inside)
      rw [List.cons_append] at notHere ⊢
      rw [find, if_neg notHere, later]
      rfl

theorem rfind_eq_none (absent : element ∉ text) : rfind element text = none := by
  induction text with
  | nil => rfl
  | cons first text ih =>
      obtain ⟨different, later⟩ := List.ne_and_not_mem_of_not_mem_cons absent
      rw [rfind, ih later]
      exact if_neg (Ne.symm different)

/-- The last of its kind is found whatever stands before it. -/
theorem rfind_append (absent : element ∉ rest) : rfind element (text ++ element :: rest) = some text.length := by
  induction text with
  | nil =>
      rw [List.nil_append, rfind, rfind_eq_none absent]
      exact if_pos rfl
  | cons first text ih =>
      rw [List.cons_append, rfind, ih]
      rfl

omit [DecidableEq α] in
/-- An element that a text has has a last place in it. -/
theorem exists_last (member : element ∈ text) : ∃ front back, text = front ++ element :: back ∧ element ∉ back := by
  obtain ⟨back, front, split, absent⟩ := List.eq_append_cons_of_mem (List.mem_reverse.mpr member)
  refine ⟨front.reverse, back.reverse, ?_, fun inside => absent (List.mem_reverse.mp inside)⟩
  rw [← List.reverse_reverse text, split, List.reverse_append, List.reverse_cons, List.append_assoc]
  rfl

end Search

end AiProtect
