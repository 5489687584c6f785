import Mathlib.Data.List.Basic

/-! # Streams that arrive in pieces

A stream hands out its elements one nonempty piece after another, cut anywhere, and then
ends. Filling a buffer takes as many pieces as it needs and splits the last one. What a
reader gets depends on the elements only, not on how they were cut.
-/

namespace AiProtect

variable {α : Type*}

structure Pieces (α : Type*) where
  pieces : List (List α)
  nonempty : ∀ piece ∈ pieces, piece ≠ []

namespace Pieces

/-- The elements still to come. -/
def elements (stream : Pieces α) : List α := stream.pieces.flatten

/-- Take pieces until `size` elements are there; `none` if the stream ends before. -/
def fill : Nat → List (List α) → Option (List α) × List (List α)
  | 0, pieces => (some [], pieces)
  | _ + 1, [] => (none, [])
  | size + 1, piece :: later =>
      if size + 1 < piece.length then (some (piece.take (size + 1)), piece.drop (size + 1) :: later)
      else
        let more := fill (size + 1 - piece.length) later
        (more.1.map (piece ++ ·), more.2)

theorem fill_cons (size : Nat) (piece : List α) (later : List (List α)) :
    fill (size + 1) (piece :: later) =
      if size + 1 < piece.length then (some (piece.take (size + 1)), piece.drop (size + 1) :: later)
      else ((fill (size + 1 - piece.length) later).1.map (piece ++ ·),
        (fill (size + 1 - piece.length) later).2) :=
  rfl

theorem fill_nonempty (size : Nat) {pieces : List (List α)} (nonempty : ∀ piece ∈ pieces, piece ≠ []) :
    ∀ piece ∈ (fill size pieces).2, piece ≠ [] := by
  induction pieces generalizing size with
  | nil =>
      cases size with
      | zero => exact nonempty
      | succ size => exact nonempty
  | cons piece later ih =>
      cases size with
      | zero => exact nonempty
      | succ size =>
          have rest : ∀ piece ∈ later, piece ≠ [] := fun other member =>
            nonempty other (List.mem_cons_of_mem _ member)
          rw [fill_cons]
          split
          · rename_i long
            intro other member
            rcases List.mem_cons.mp member with rfl | member
            · apply List.ne_nil_of_length_pos
              rw [List.length_drop]
              omega
            · exact rest other member
          · exact ih (size + 1 - piece.length) rest

theorem fill_append {front back : List α} {pieces : List (List α)} (flat : pieces.flatten = front ++ back) :
    (fill front.length pieces).1 = some front ∧ (fill front.length pieces).2.flatten = back := by
  induction pieces generalizing front with
  | nil =>
      obtain ⟨rfl, rfl⟩ := List.append_eq_nil_iff.mp flat.symm
      exact ⟨rfl, rfl⟩
  | cons piece later ih =>
      cases front with
      | nil => exact ⟨rfl, flat⟩
      | cons first front =>
          rw [List.flatten_cons] at flat
          rw [List.length_cons, fill_cons]
          split
          · rename_i long
            -- The buffer is full inside this piece.
            have taken : (first :: front) = piece.take (front.length + 1) := by
              have same := congrArg (List.take (front.length + 1)) flat
              rw [List.take_append_of_le_length (by omega)] at same
              rw [same]
              exact (List.take_left' rfl).symm
            have left : piece.drop (front.length + 1) ++ later.flatten = back := by
              have same := congrArg (List.drop (front.length + 1)) flat
              rw [List.drop_append_of_le_length (by omega)] at same
              rw [same]
              exact List.drop_left' rfl
            exact ⟨congrArg some taken.symm, left⟩
          · rename_i short
            obtain ⟨more, whole, rest⟩ : ∃ more, (first :: front) = piece ++ more ∧ later.flatten = more ++ back := by
              rcases List.append_eq_append_iff.mp flat with ⟨more, whole, rest⟩ | ⟨more, whole, rest⟩
              · exact ⟨more, whole, rest⟩
              · have lengths := congrArg List.length whole
                rw [List.length_append, List.length_cons] at lengths
                have none : more = [] := List.length_eq_zero_iff.mp (by omega)
                subst none
                exact ⟨[], by rw [whole, List.append_nil, List.append_nil], by rw [rest]; rfl⟩
            have count : front.length + 1 - piece.length = more.length := by
              have lengths := congrArg List.length whole
              rw [List.length_append, List.length_cons] at lengths
              omega
            obtain ⟨filled, after⟩ := ih rest
            rw [count, filled, after, Option.map_some, whole]
            exact ⟨rfl, rfl⟩

theorem fill_short {size : Nat} {pieces : List (List α)} (short : pieces.flatten.length < size) :
    fill size pieces = (none, []) := by
  induction pieces generalizing size with
  | nil =>
      obtain ⟨size, rfl⟩ : ∃ more, size = more + 1 := ⟨size - 1, by simp at short; omega⟩
      rfl
  | cons piece later ih =>
      rw [List.flatten_cons, List.length_append] at short
      obtain ⟨size, rfl⟩ : ∃ more, size = more + 1 := ⟨size - 1, by omega⟩
      rw [fill_cons, if_neg (by omega), ih (by omega)]
      rfl

/-- Fill a buffer of `size` elements, or consume the stream if it holds fewer. -/
def readExact (size : Nat) (stream : Pieces α) : Option (List α) × Pieces α :=
  ((fill size stream.pieces).1, ⟨(fill size stream.pieces).2, fill_nonempty size stream.nonempty⟩)

variable {stream : Pieces α}

theorem readExact_append {front back : List α} (flat : stream.elements = front ++ back) :
    ∃ rest, stream.readExact front.length = (some front, rest) ∧ rest.elements = back := by
  obtain ⟨filled, after⟩ := fill_append flat
  exact ⟨_, Prod.ext filled rfl, after⟩

theorem readExact_short {size : Nat} (short : stream.elements.length < size) :
    ∃ rest, stream.readExact size = (none, rest) ∧ rest.elements = [] := by
  have filled : fill size stream.pieces = (none, []) := fill_short short
  refine ⟨(stream.readExact size).2, Prod.ext ?_ rfl, ?_⟩
  · simp only [readExact, filled]
  · simp only [readExact, elements, filled, List.flatten_nil]

end Pieces

end AiProtect
