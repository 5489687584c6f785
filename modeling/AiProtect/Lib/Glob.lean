import Mathlib.Data.List.Infix

/-! # Glob patterns

A pattern is read into tokens, one of which stands for any stretch of text and the others
for one element each. A text followed by the mark for any stretch matches what begins with
the text if nothing in it is a mark; the last theorem says that nothing else comes to that.
-/

namespace AiProtect

namespace Glob

/-- The elements with a meaning of their own in a pattern. -/
structure Marks (α : Type*) where
  star : α
  any : α
  opening : α
  closing : α
  negation : α
  range : α
  escape : α

inductive Token (α : Type*) where
  | star
  | any
  | oneOf (negated : Bool) (ranges : List (α × α))
  | lit (element : α)
  deriving DecidableEq, Repr

variable {α : Type*} [DecidableEq α]

namespace Marks

variable (marks : Marks α)

/-- The ranges of a class and the pattern behind it. A class without an end takes the whole
    rest of the pattern. -/
def ranges : List α → List (α × α) × List α
  | [] => ([], [])
  | first :: rest =>
      if first = marks.escape then
        match rest with
        | second :: more => ((second, second) :: (ranges more).1, (ranges more).2)
        | [] => ([(first, first)], [])
      else if first = marks.closing then ([], rest)
      else
        match rest with
        | second :: third :: more =>
            if second = marks.range then ((first, third) :: (ranges more).1, (ranges more).2)
            else ((first, first) :: (ranges (second :: third :: more)).1, (ranges (second :: third :: more)).2)
        | [second] => ((first, first) :: (ranges [second]).1, (ranges [second]).2)
        | [] => ([(first, first)], [])

/-- The class behind its opening mark. -/
def oneOf : List α → Token α × List α
  | [] => (.oneOf false [], [])
  | first :: rest =>
      if first = marks.negation then (.oneOf true (marks.ranges rest).1, (marks.ranges rest).2)
      else (.oneOf false (marks.ranges (first :: rest)).1, (marks.ranges (first :: rest)).2)

/-- The first token of a pattern and what is left of it. -/
def next (first : α) (rest : List α) : Token α × List α :=
  if first = marks.star then (.star, rest)
  else if first = marks.any then (.any, rest)
  else if first = marks.opening then marks.oneOf rest
  else if first = marks.escape then
    match rest with
    | second :: more => (.lit second, more)
    | [] => (.lit first, [])
  else (.lit first, rest)

/-- The tokens of a pattern, up to `fuel` of them. -/
def parse : Nat → List α → List (Token α)
  | 0, _ | _, [] => []
  | fuel + 1, first :: rest => (marks.next first rest).1 :: parse fuel (marks.next first rest).2

def tokens (pattern : List α) : List (Token α) := marks.parse pattern.length pattern

end Marks

variable [LE α] [DecidableLE α]

/-- A token other than the star takes one element. A range may be written either way round. -/
def Token.takes : Token α → α → Bool
  | .star, _ | .any, _ => true
  | .oneOf negated ranges, element =>
      negated != ranges.any fun range =>
        (range.1 ≤ element && element ≤ range.2) || (range.2 ≤ element && element ≤ range.1)
  | .lit literal, element => element = literal

def accepts : List (Token α) → List α → Bool
  | [], text => text.isEmpty
  | .star :: tokens, text => text.tails.any (accepts tokens)
  | token :: tokens, first :: rest => token.takes first && accepts tokens rest
  | _ :: _, [] => false

-- Its equations are generated once, ahead of the proofs that rewrite with them.
attribute [grind] accepts

section Accepts

variable {front back tokens : List (Token α)} {text : List α}

theorem accepts_nil : accepts ([] : List (Token α)) text = true ↔ text = [] := by
  rw [accepts, List.isEmpty_iff]

theorem accepts_star : accepts (.star :: tokens) text = true ↔ ∃ rest, rest <:+ text ∧ accepts tokens rest = true := by
  simp only [accepts, List.any_eq_true, List.mem_tails]

theorem accepts_cons {token : Token α} (single : token ≠ .star) :
    accepts (token :: tokens) text = true ↔
      ∃ first rest, text = first :: rest ∧ token.takes first = true ∧ accepts tokens rest = true := by
  cases text with
  | nil =>
      cases token with
      | star => exact absurd rfl single
      | any | oneOf _ _ | lit _ => simp [accepts]
  | cons first rest =>
      cases token with
      | star => exact absurd rfl single
      | any | oneOf _ _ | lit _ => simp [accepts]

theorem accepts_append :
    accepts (front ++ back) text = true ↔
      ∃ start rest, text = start ++ rest ∧ accepts front start = true ∧ accepts back rest = true := by
  induction front generalizing text with
  | nil => simp [accepts_nil]
  | cons token front ih =>
      rw [List.cons_append]
      by_cases single : token = .star
      · subst single
        simp only [accepts_star, ih]
        constructor
        · rintro ⟨_, ⟨skipped, rfl⟩, start, rest, rfl, mine, yours⟩
          exact ⟨skipped ++ start, rest, by simp, ⟨start, List.suffix_append _ _, mine⟩, yours⟩
        · rintro ⟨_, rest, rfl, ⟨start, ⟨skipped, rfl⟩, mine⟩, yours⟩
          exact ⟨start ++ rest, ⟨skipped, by simp⟩, start, rest, rfl, mine, yours⟩
      · simp only [accepts_cons single, ih]
        constructor
        · rintro ⟨first, _, rfl, taken, start, rest, rfl, mine, yours⟩
          exact ⟨first :: start, rest, rfl, ⟨first, start, rfl, taken, mine⟩, yours⟩
        · rintro ⟨_, rest, rfl, ⟨first, start, rfl, taken, mine⟩, yours⟩
          exact ⟨first, start ++ rest, rfl, taken, start, rest, rfl, mine, yours⟩

/-- Without a star a pattern fixes the length. -/
theorem length_of_accepts (accepted : accepts tokens text = true) (starless : Token.star ∉ tokens) :
    text.length = tokens.length := by
  induction tokens generalizing text with
  | nil =>
      rw [accepts_nil.mp accepted]
      rfl
  | cons token tokens ih =>
      have single : token ≠ .star := fun same => starless (same ▸ List.mem_cons_self)
      obtain ⟨first, rest, rfl, -, later⟩ := (accepts_cons single).mp accepted
      rw [List.length_cons, List.length_cons, ih later fun member => starless (List.mem_cons_of_mem _ member)]

end Accepts

namespace Marks

variable {marks : Marks α} {text : List α}

/-- The token of an element that does not begin a longer one. -/
def single (marks : Marks α) (element : α) : Token α :=
  if element = marks.star then .star else if element = marks.any then .any else .lit element

theorem accepts_map_single (text : List α) : accepts (text.map marks.single) text = true := by
  induction text with
  | nil => rfl
  | cons first rest ih =>
      rw [List.map_cons, single]
      split
      · exact accepts_star.mpr ⟨rest, List.suffix_cons _ _, ih⟩
      · split <;> simp [accepts, Token.takes, ih]

section Parsing

omit [LE α] [DecidableLE α]

theorem length_ranges_le (marks : Marks α) (pattern : List α) :
    (marks.ranges pattern).2.length ≤ pattern.length - 1 := by
  fun_induction ranges marks pattern with
  | case1 | case3 | case8 => simp
  | case4 => simp
  | case2 _ _ ih | case5 _ _ _ _ _ ih | case6 _ _ _ _ _ _ _ ih | case7 _ _ _ _ ih =>
      simp only [List.length_cons, List.length_nil] at ih ⊢
      omega

/-- An element that is a token by itself wherever it stands. -/
def Simple (marks : Marks α) (element : α) : Prop :=
  element = marks.star ∨ element = marks.any ∨ (element ≠ marks.opening ∧ element ≠ marks.escape)

theorem next_of_simple {first : α} (simple : marks.Simple first) (rest : List α) :
    marks.next first rest = (marks.single first, rest) := by
  simp only [next, single]
  by_cases star : first = marks.star
  · simp [star]
  · by_cases any : first = marks.any
    · rw [if_neg star, if_neg star, if_pos any, if_pos any]
    · obtain ⟨opening, escape⟩ := (simple.resolve_left star).resolve_left any
      simp [star, any, opening, escape]

theorem length_oneOf_le (rest : List α) : (marks.oneOf rest).2.length ≤ rest.length - 1 := by
  cases rest with
  | nil => simp [oneOf]
  | cons first rest =>
      have negated := length_ranges_le marks rest
      have plain := length_ranges_le marks (first :: rest)
      simp only [oneOf]
      split
      · simp only [List.length_cons]
        omega
      · exact plain

/-- A longer token takes more than its first element, unless that is the last one. -/
theorem length_next_le_of_not_simple {first : α} (longer : ¬ marks.Simple first) (rest : List α) :
    (marks.next first rest).2.length ≤ rest.length - 1 := by
  simp only [Simple, not_or, not_and_or, not_not] at longer
  obtain ⟨star, any, special⟩ := longer
  simp only [next, if_neg star, if_neg any]
  by_cases opening : first = marks.opening
  · simp only [if_pos opening]
    exact length_oneOf_le rest
  · simp only [if_neg opening, if_pos (special.resolve_left opening)]
    cases rest <;> simp

theorem length_next_le (first : α) (rest : List α) : (marks.next first rest).2.length ≤ rest.length := by
  by_cases simple : marks.Simple first
  · rw [next_of_simple simple]
  · exact Nat.le_trans (length_next_le_of_not_simple simple rest) (Nat.sub_le _ _)

theorem length_parse_le (marks : Marks α) (fuel : Nat) (pattern : List α) :
    (marks.parse fuel pattern).length ≤ pattern.length := by
  induction fuel generalizing pattern with
  | zero => simp [parse]
  | succ fuel ih =>
      cases pattern with
      | nil => simp [parse]
      | cons first rest =>
          rw [parse, List.length_cons, List.length_cons]
          exact Nat.succ_le_succ (Nat.le_trans (ih _) (length_next_le first rest))

theorem parse_of_simple {fuel : Nat} (simple : ∀ element ∈ text, marks.Simple element) (enough : text.length < fuel) :
    marks.parse fuel (text ++ [marks.star]) = text.map marks.single ++ [.star] := by
  induction text generalizing fuel with
  | nil =>
      obtain ⟨fuel, rfl⟩ := Nat.exists_eq_succ_of_ne_zero (Nat.ne_of_gt enough)
      have star : marks.Simple marks.star := .inl rfl
      rw [List.nil_append, parse, next_of_simple star, List.map_nil, List.nil_append]
      cases fuel <;> simp [parse, single]
  | cons first text ih =>
      obtain ⟨fuel, rfl⟩ := Nat.exists_eq_succ_of_ne_zero (Nat.ne_of_gt (Nat.zero_lt_of_lt enough))
      rw [List.cons_append, parse, next_of_simple (simple first List.mem_cons_self)]
      rw [ih (fun element member => simple element (List.mem_cons_of_mem _ member)) (Nat.lt_of_succ_lt_succ enough)]
      rfl

/-- As many tokens as elements means that each element is a token by itself. -/
theorem simple_of_length_parse {fuel : Nat}
    (many : text.length < (marks.parse fuel (text ++ [marks.star])).length) :
    ∀ element ∈ text, marks.Simple element := by
  induction text generalizing fuel with
  | nil => exact List.forall_mem_nil _
  | cons first text ih =>
      cases fuel with
      | zero => simp [parse] at many
      | succ fuel =>
          rw [List.cons_append, parse, List.length_cons, List.length_cons] at many
          have few := length_parse_le marks fuel (marks.next first (text ++ [marks.star])).2
          by_cases simple : marks.Simple first
          · rw [next_of_simple simple] at many
            exact List.forall_mem_cons.mpr ⟨simple, ih (Nat.lt_of_succ_lt_succ many)⟩
          · have short := length_next_le_of_not_simple simple (text ++ [marks.star])
            rw [List.length_append, List.length_singleton] at short
            omega

end Parsing

/-- An element that stands for itself wherever it stands. -/
structure Plain (marks : Marks α) (element : α) : Prop where
  star : element ≠ marks.star
  any : element ≠ marks.any
  opening : element ≠ marks.opening
  escape : element ≠ marks.escape

omit [DecidableEq α] [LE α] [DecidableLE α] in
theorem Plain.simple {element : α} (plain : marks.Plain element) : marks.Simple element :=
  .inr (.inr ⟨plain.opening, plain.escape⟩)

theorem accepts_map_single_of_plain (plain : ∀ element ∈ text, marks.Plain element) {key : List α} :
    accepts (text.map marks.single) key = true ↔ key = text := by
  induction text generalizing key with
  | nil => exact accepts_nil
  | cons first text ih =>
      have mine := plain first List.mem_cons_self
      have literal : marks.single first = .lit first := by rw [single, if_neg mine.star, if_neg mine.any]
      rw [List.map_cons, literal, accepts_cons (by simp)]
      simp only [ih fun element member => plain element (List.mem_cons_of_mem _ member), Token.takes, decide_eq_true_eq]
      constructor
      · rintro ⟨_, _, rfl, rfl, rfl⟩
        rfl
      · rintro rfl
        exact ⟨first, text, rfl, rfl, rfl⟩

/-- A plain text and a star match what begins with the text. -/
theorem accepts_tokens_of_plain (plain : ∀ element ∈ text, marks.Plain element) (key : List α) :
    accepts (marks.tokens (text ++ [marks.star])) key = true ↔ text <+: key := by
  rw [tokens, parse_of_simple (fun element member => (plain element member).simple) (by simp), accepts_append]
  simp only [accepts_map_single_of_plain plain, accepts_star]
  constructor
  · rintro ⟨_, rest, rfl, rfl, -⟩
    exact List.prefix_append _ _
  · rintro ⟨rest, rfl⟩
    exact ⟨text, rest, rfl, rfl, [], List.nil_suffix, rfl⟩

/-- A text and a star that match the text and something longer, but not the text put behind
    a broken copy of it: every element of the text is a token by itself, and none a star. -/
theorem simple_of_accepts {front : List α} {final extra other : α}
    (own : accepts (marks.tokens (front ++ [final] ++ [marks.star])) (front ++ [final]) = true)
    (longer : accepts (marks.tokens (front ++ [final] ++ [marks.star])) (front ++ [final] ++ [extra]) = true)
    (foreign : accepts (marks.tokens (front ++ [final] ++ [marks.star]))
      (front ++ other :: (front ++ [final])) = false) :
    ∀ element ∈ front ++ [final], marks.Simple element ∧ element ≠ marks.star := by
  generalize text_eq : front ++ [final] = text at *
  have starred : Token.star ∈ marks.tokens (text ++ [marks.star]) := by
    by_contra starless
    have short := length_of_accepts own starless
    have long := length_of_accepts longer starless
    rw [List.length_append, List.length_singleton] at long
    omega
  obtain ⟨before, after, split, starless⟩ := List.eq_append_cons_of_mem starred
  rw [split] at own foreign
  obtain ⟨start, rest, whole, mine, yours⟩ := accepts_append.mp own
  obtain ⟨last, ends, accepted⟩ := accepts_star.mp yours
  -- if the star took its stretch inside the text, it could take the broken copy as well
  have all : start = text := by
    by_contra partly
    have left : 0 < rest.length := by
      refine List.length_pos_of_ne_nil fun nothing => partly ?_
      rw [whole, nothing, List.append_nil]
    have inside : start <+: front := by
      refine List.prefix_of_prefix_length_le ⟨rest, whole.symm⟩ ⟨[final], text_eq⟩ ?_
      have sizes := congrArg List.length (text_eq.trans whole)
      simp only [List.length_append, List.length_singleton] at sizes
      omega
    obtain ⟨gap, rfl⟩ := inside
    have ends : last <:+ gap ++ other :: text :=
      (ends.trans ⟨start, whole.symm⟩).trans ⟨gap ++ [other], by simp⟩
    have broken : accepts (before ++ .star :: after) ((start ++ gap) ++ other :: text) = true :=
      accepts_append.mpr ⟨start, gap ++ other :: text, by simp, mine, accepts_star.mpr ⟨last, ends, accepted⟩⟩
    rw [foreign] at broken
    cases broken
  have size : text.length = before.length := all ▸ length_of_accepts mine starless
  have many : text.length < (marks.tokens (text ++ [marks.star])).length := by
    rw [split, List.length_append, List.length_cons]
    omega
  have simple : ∀ element ∈ text, marks.Simple element := simple_of_length_parse many
  have single : before = text.map marks.single := by
    have parsed : before ++ .star :: after = text.map marks.single ++ [.star] := by
      rw [← split, tokens, parse_of_simple simple (by simp)]
    exact (List.append_inj parsed (by simp [size])).1
  intro element member
  refine ⟨simple element member, ?_⟩
  rintro rfl
  apply starless
  rw [single]
  exact List.mem_map.mpr ⟨_, member, if_pos rfl⟩

/-- The mark for one element matches whatever is put in its place. -/
theorem accepts_replaced {left right : List α} (other : α)
    (simple : ∀ element ∈ left ++ marks.any :: right, marks.Simple element) :
    accepts (marks.tokens (left ++ marks.any :: right ++ [marks.star])) (left ++ other :: right) = true := by
  have one : accepts [marks.single marks.any] [other] = true := by
    rw [single]
    split
    · exact accepts_star.mpr ⟨[], List.nil_suffix, rfl⟩
    · rw [if_pos rfl]
      rfl
  have parsed : marks.tokens (left ++ marks.any :: right ++ [marks.star]) =
      left.map marks.single ++ ([marks.single marks.any] ++ (right.map marks.single ++ [.star])) := by
    rw [tokens, parse_of_simple simple (by simp)]
    simp
  rw [parsed]
  refine accepts_append.mpr ⟨left, other :: right, rfl, accepts_map_single left, ?_⟩
  refine accepts_append.mpr ⟨[other], right, rfl, one, ?_⟩
  exact accepts_append.mpr ⟨right, [], by simp, accepts_map_single right, rfl⟩

/-- If a text and a star match what begins with the text and nothing else, as far as these
    few texts tell, the text is plain. -/
theorem plain_of_accepts {front : List α} {final extra other : α}
    (own : accepts (marks.tokens (front ++ [final] ++ [marks.star])) (front ++ [final]) = true)
    (longer : accepts (marks.tokens (front ++ [final] ++ [marks.star])) (front ++ [final] ++ [extra]) = true)
    (foreign : accepts (marks.tokens (front ++ [final] ++ [marks.star]))
      (front ++ other :: (front ++ [final])) = false)
    (replaced : marks.any ∈ front ++ [final] → ∃ left right another, front ++ [final] = left ++ marks.any :: right ∧
      accepts (marks.tokens (front ++ [final] ++ [marks.star])) (left ++ another :: right) = false) :
    ∀ element ∈ front ++ [final], marks.Plain element := by
  have simple := simple_of_accepts own longer foreign
  have exact : marks.any ∉ front ++ [final] := by
    intro member
    obtain ⟨left, right, another, split, rejected⟩ := replaced member
    rw [split] at simple rejected
    rw [accepts_replaced another fun element inside => (simple element inside).1] at rejected
    cases rejected
  intro element member
  obtain ⟨alone, notStar⟩ := simple element member
  have notAny : element ≠ marks.any := fun same => exact (same ▸ member)
  obtain ⟨opening, escape⟩ := (alone.resolve_left notStar).resolve_left notAny
  exact ⟨notStar, notAny, opening, escape⟩

end Marks

end Glob

end AiProtect
