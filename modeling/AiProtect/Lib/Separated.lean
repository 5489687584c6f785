import Mathlib.Data.List.Basic
import Mathlib.Data.Nat.Init

/-! # Separated texts

Parts joined by a separator that occurs in none of them can be told apart again, also
with one gap of two separators in a row. Numerals are such parts: they are never empty
and consist of digits only.
-/

namespace AiProtect

section Numerals

variable {base : Nat}

theorem digitChar_injective {digit other : Nat} (small : digit < 16) (otherSmall : other < 16)
    (same : digit.digitChar = other.digitChar) : digit = other := by
  have each : ∀ digit < 16, ∀ other < 16, digit.digitChar = other.digitChar → digit = other := by decide
  exact each digit small other otherSmall same

theorem mem_toDigits (low : 1 < base) {number : Nat} {char : Char} (member : char ∈ Nat.toDigits base number) :
    ∃ digit < base, char = digit.digitChar := by
  induction number using Nat.strong_induction_on with
  | _ number ih =>
      rw [Nat.toDigits_eq_if low] at member
      split at member
      · rename_i single
        exact ⟨number, single, List.mem_singleton.mp member⟩
      · rcases List.mem_append.mp member with front | last
        · exact ih (number / base) (Nat.div_lt_self (by omega) low) front
        · exact ⟨number % base, Nat.mod_lt number (by omega), List.mem_singleton.mp last⟩

/-- A numeral determines its number. -/
theorem toDigits_injective (low : 1 < base) (high : base ≤ 16) : Function.Injective (Nat.toDigits base) := by
  intro number
  induction number using Nat.strong_induction_on with
  | _ number ih =>
      intro other same
      rw [Nat.toDigits_eq_if (n := number) low, Nat.toDigits_eq_if (n := other) low] at same
      have digit : number % base < base := Nat.mod_lt number (by omega)
      have otherDigit : other % base < base := Nat.mod_lt other (by omega)
      split at same
      · split at same
        · exact digitChar_injective (by omega) (by omega) (List.singleton_inj.mp same)
        · have lengths := congrArg List.length same
          simp at lengths
      · split at same
        · have lengths := congrArg List.length same
          simp at lengths
        · obtain ⟨front, last⟩ := List.append_inj' same rfl
          have quotient := ih (number / base) (Nat.div_lt_self (by omega) low) front
          have remainder := digitChar_injective (by omega) (by omega) (List.singleton_inj.mp last)
          rw [← Nat.div_add_mod number base, ← Nat.div_add_mod other base, quotient, remainder]

end Numerals

section Parts

variable {α : Type*} {separator : α} {parts others front back : List (List α)}

/-- Parts as they come out of numerals: not empty, and without the separator. -/
def Clean (separator : α) (parts : List (List α)) : Prop := ∀ part ∈ parts, separator ∉ part ∧ part ≠ []

theorem mem_intercalate {element : α} (member : element ∈ [separator].intercalate parts) :
    element = separator ∨ ∃ part ∈ parts, element ∈ part := by
  induction parts with
  | nil => cases member
  | cons part parts ih =>
      cases parts with
      | nil =>
          rw [List.intercalate_singleton] at member
          exact .inr ⟨part, List.mem_cons_self, member⟩
      | cons next parts =>
          rw [List.intercalate_cons_cons, List.mem_append, List.mem_append] at member
          rcases member with (here | mark) | later
          · exact .inr ⟨part, List.mem_cons_self, here⟩
          · exact .inl (List.mem_singleton.mp mark)
          · rcases ih later with same | ⟨other, inside, found⟩
            · exact .inl same
            · exact .inr ⟨other, List.mem_cons_of_mem _ inside, found⟩

theorem separator_mem_intercalate (several : 2 ≤ parts.length) : separator ∈ [separator].intercalate parts := by
  match parts, several with
  | part :: next :: parts, _ =>
      rw [List.intercalate_cons_cons]
      simp

theorem splitOn_clean [DecidableEq α] (clean : Clean separator parts) (some : parts ≠ []) :
    ([separator].intercalate parts).splitOn separator = parts :=
  List.splitOn_intercalate separator (fun part member => (clean part member).1) some

theorem intercalate_inj [DecidableEq α] (clean : Clean separator parts) (otherClean : Clean separator others)
    (some : parts ≠ []) (otherSome : others ≠ [])
    (same : [separator].intercalate parts = [separator].intercalate others) : parts = others := by
  rw [← splitOn_clean clean some, same, splitOn_clean otherClean otherSome]

/-- Two lists of parts, separated by a gap. -/
def joinGap (separator : α) (front back : List (List α)) : List α :=
  [separator].intercalate front ++ [separator, separator] ++ [separator].intercalate back

/-- Where there is no part, a separator still has an empty one beside it. -/
def orEmpty (parts : List (List α)) : List (List α) := if parts = [] then [[]] else parts

theorem intercalate_orEmpty : [separator].intercalate (orEmpty parts) = [separator].intercalate parts := by
  unfold orEmpty
  split
  · rename_i none
    rw [none]
    rfl
  · rfl

theorem intercalate_append (some : front ≠ []) (otherSome : back ≠ []) :
    [separator].intercalate (front ++ back) =
      [separator].intercalate front ++ [separator] ++ [separator].intercalate back := by
  induction front with
  | nil => exact absurd rfl some
  | cons part front ih =>
      cases front with
      | nil =>
          obtain ⟨next, parts, rfl⟩ := List.exists_cons_of_ne_nil otherSome
          rw [List.singleton_append, List.intercalate_cons_cons, List.intercalate_singleton]
      | cons next front =>
          rw [List.cons_append, List.cons_append, List.intercalate_cons_cons, ← List.cons_append,
            ih (List.cons_ne_nil _ _), List.intercalate_cons_cons]
          simp only [List.append_assoc]

/-- The gap is an empty part. -/
theorem joinGap_eq : joinGap separator front back = [separator].intercalate (orEmpty front ++ [[]] ++ orEmpty back) := by
  have someFront : orEmpty front ≠ [] := by
    unfold orEmpty
    split
    · exact List.cons_ne_nil _ _
    · assumption
  have someBack : orEmpty back ≠ [] := by
    unfold orEmpty
    split
    · exact List.cons_ne_nil _ _
    · assumption
  rw [intercalate_append (by simp) someBack, intercalate_append someFront (List.cons_ne_nil _ _),
    intercalate_orEmpty, intercalate_orEmpty, List.intercalate_singleton, joinGap]
  simp only [List.append_nil, List.append_assoc, List.cons_append, List.nil_append]

theorem takeWhile_orEmpty [DecidableEq α] (clean : Clean separator front) (rest : List (List α)) :
    (orEmpty front ++ [] :: rest).takeWhile (fun part => part ≠ []) = front := by
  unfold orEmpty
  split
  · rename_i none
    rw [none]
    rfl
  · rw [List.takeWhile_append_of_pos fun part member => decide_eq_true (clean part member).2]
    simp

theorem splitOn_joinGap [DecidableEq α] (clean : Clean separator front) (cleanBack : Clean separator back) :
    (joinGap separator front back).splitOn separator = orEmpty front ++ [[]] ++ orEmpty back := by
  rw [joinGap_eq]
  apply List.splitOn_intercalate
  · have empty : ∀ parts : List (List α), Clean separator parts → ∀ part ∈ orEmpty parts, separator ∉ part := by
      intro parts clean part member
      unfold orEmpty at member
      split at member
      · rw [List.mem_singleton.mp member]
        exact List.not_mem_nil
      · exact (clean part member).1
    intro part member
    rw [List.mem_append, List.mem_append, List.mem_singleton] at member
    rcases member with (inFront | rfl) | inBack
    · exact empty front clean part inFront
    · exact List.not_mem_nil
    · exact empty back cleanBack part inBack
  · simp

/-- The parts on both sides of the gap can be read off. -/
theorem joinGap_inj [DecidableEq α] {front' back' : List (List α)} (clean : Clean separator front)
    (cleanBack : Clean separator back) (clean' : Clean separator front') (cleanBack' : Clean separator back')
    (same : joinGap separator front back = joinGap separator front' back') : front = front' ∧ back = back' := by
  have split := congrArg (List.splitOn separator) same
  rw [splitOn_joinGap clean cleanBack, splitOn_joinGap clean' cleanBack', List.append_assoc, List.append_assoc,
    List.singleton_append, List.singleton_append] at split
  have fronts : front = front' := by
    have taken := congrArg (List.takeWhile fun part => part ≠ []) split
    rwa [takeWhile_orEmpty clean, takeWhile_orEmpty clean'] at taken
  subst fronts
  have backs := List.cons.inj (List.append_cancel_left split)
  have taken := congrArg (fun parts => (parts ++ [[]]).takeWhile fun part => part ≠ []) backs.2
  simp only [takeWhile_orEmpty cleanBack, takeWhile_orEmpty cleanBack'] at taken
  exact ⟨rfl, taken⟩

theorem joinGap_ne_intercalate [DecidableEq α] (clean : Clean separator front) (cleanBack : Clean separator back)
    (cleanParts : Clean separator parts) (some : parts ≠ []) :
    joinGap separator front back ≠ [separator].intercalate parts := by
  intro same
  have split := congrArg (List.splitOn separator) same
  rw [splitOn_joinGap clean cleanBack, splitOn_clean cleanParts some] at split
  have gap : [] ∈ parts := by
    rw [← split]
    simp
  exact (cleanParts [] gap).2 rfl

end Parts

end AiProtect
