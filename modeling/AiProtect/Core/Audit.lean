import AiProtect.Core.Action
import Mathlib.Data.List.Infix
import Mathlib.Data.Nat.Digits.Lemmas

/-! # Audit log lines

Every decision is logged with the caller's name and the target of the action. Both come
from the client, so a line holds only a bounded part of each, cut between two characters.
-/

namespace AiProtect

namespace Audit

/-- `MAX_LOGGED_FIELD_LEN`, in bytes. -/
def maxLoggedFieldLen : Nat := 512

/-- `str::is_char_boundary`. -/
def isCharBoundary (text : String) (index : Nat) : Bool := String.Pos.Raw.isValid text ⟨index⟩

/-- `&text[..cut]`, which panics unless `cut` is a character boundary. -/
def sliceTo (text : String) (cut : Nat) : Option String :=
  if boundary : String.Pos.Raw.IsValid text ⟨cut⟩ then
    some ⟨text.toByteArray.extract 0 cut, boundary.isValidUTF8_extract_zero⟩
  else none

/-- The loop that moves the cut back to a character boundary: where it stops and after how
    many steps. `none` is the subtraction that would go below zero. -/
def searchBack (text : String) : Nat → Option (Nat × Nat)
  | 0 => if isCharBoundary text 0 then some (0, 0) else none
  | cut + 1 =>
      if isCharBoundary text (cut + 1) then some (cut + 1, 0)
      else (searchBack text cut).map fun (stop, steps) => (stop, steps + 1)

/-- What follows the kept part of a value of `size` bytes. -/
def sizeNote (size : Nat) : String := "... (" ++ toString size ++ " bytes total)"

/-- `none` is a panic. -/
def truncateForLog (value : String) : Option String :=
  if value.utf8ByteSize ≤ maxLoggedFieldLen then some value
  else do
    let (cut, _) ← searchBack value maxLoggedFieldLen
    let kept ← sliceTo value cut
    some (kept ++ sizeNote value.utf8ByteSize)

inductive Level where
  | info
  | warn
  deriving DecidableEq, Repr

/-- One line of the log. -/
structure Line where
  level : Level
  identity : String
  backend : String
  operation : OperationKind
  target : String
  blastRadius : Nat
  reason : Option String
  message : String
  deriving DecidableEq, Repr

def logDecision (identity : Identity) (action : Action) (decision : Decision) : Option Line := do
  let identity ← truncateForLog identity.name
  let target ← truncateForLog action.target
  match decision with
  | .allow =>
      some ⟨.info, identity, action.backend, action.operation, target, action.blastRadius, none, "action allowed"⟩
  | .block reason =>
      some ⟨.warn, identity, action.backend, action.operation, target, action.blastRadius, some reason,
        "action blocked"⟩

/-- `kept` is the longest start of `value` made of whole characters in at most `limit` bytes. -/
structure LongestWithin (limit : Nat) (kept value : String) : Prop where
  starts : kept.toList <+: value.toList
  fits : kept.utf8ByteSize ≤ limit
  longest : ∀ other : String, other.toList <+: value.toList → other.utf8ByteSize ≤ limit →
    other.utf8ByteSize ≤ kept.utf8ByteSize

section Boundaries

variable {text kept rest : String} {char : Char} {index cut : Nat}

theorem isCharBoundary_iff :
    isCharBoundary text index = true ↔
      ∃ before after : String, text = before ++ after ∧ before.utf8ByteSize = index := by
  rw [isCharBoundary, String.Pos.Raw.isValid_eq_true_iff, String.Pos.Raw.isValid_iff_exists_append]
  constructor
  · rintro ⟨before, after, split, position⟩
    exact ⟨before, after, split, (congrArg String.Pos.Raw.byteIdx position).symm⟩
  · rintro ⟨before, after, split, size⟩
    exact ⟨before, after, split, String.Pos.Raw.ext size.symm⟩

theorem sliceTo_append (before after : String) :
    sliceTo (before ++ after) before.utf8ByteSize = some before := by
  have boundary : String.Pos.Raw.IsValid (before ++ after) ⟨before.utf8ByteSize⟩ :=
    String.Pos.Raw.isValid_iff_exists_append.mpr ⟨before, after, rfl, rfl⟩
  rw [sliceTo, dif_pos boundary, Option.some.injEq, ← String.toByteArray_inj]
  simp only [String.toByteArray_append, ← String.size_toByteArray]
  exact ByteArray.extract_append_eq_left rfl

/-- A character lies across, or right after, every position of a text. -/
theorem exists_char_across (text : String) (position : Nat) (inside : position < text.utf8ByteSize) :
    ∃ (kept rest : String) (char : Char), text = kept ++ String.singleton char ++ rest ∧
      kept.utf8ByteSize ≤ position ∧ position < kept.utf8ByteSize + char.utf8Size := by
  induction text using String.push_induction with
  | empty => simp at inside
  | push before last ih =>
      by_cases within : position < before.utf8ByteSize
      · obtain ⟨kept, rest, char, split, low, high⟩ := ih within
        refine ⟨kept, rest.push last, char, ?_, low, high⟩
        exact String.toList_inj.mp (by simp [split])
      · refine ⟨before, "", last, ?_, Nat.le_of_not_lt within, ?_⟩
        · simp
        · simpa using inside

/-- Whole characters in front of a text that reach into the character after `kept` reach
    past it. -/
theorem size_le_of_before_char {before after : String}
    (split : kept ++ String.singleton char ++ rest = before ++ after)
    (short : before.utf8ByteSize < kept.utf8ByteSize + char.utf8Size) :
    before.utf8ByteSize ≤ kept.utf8ByteSize := by
  have chars : kept.toList ++ char :: rest.toList = before.toList ++ after.toList := by
    simpa using congrArg String.toList split
  obtain ⟨more, grown, tail⟩ | ⟨more, shrunk, -⟩ := List.append_eq_append_iff.mp chars
  · cases more with
    | nil =>
        have same : before = kept := String.toList_inj.mp (by simpa using grown)
        rw [same]
    | cons first more =>
        obtain ⟨rfl, -⟩ : char = first ∧ rest.toList = more ++ after.toList := by simpa using tail
        have past : before = kept ++ String.singleton char ++ String.ofList more :=
          String.toList_inj.mp (by simpa using grown)
        simp only [past, String.utf8ByteSize_append, String.utf8ByteSize_singleton] at short
        omega
  · have inner : kept = before ++ String.ofList more := String.toList_inj.mp (by simpa using shrunk)
    rw [inner, String.utf8ByteSize_append]
    exact Nat.le_add_right _ _

/-- The search stops at the last boundary up to where it starts. -/
theorem searchBack_eq {stop : Nat} (boundary : isCharBoundary text stop = true) (reached : stop ≤ cut)
    (last : ∀ index, stop < index → index ≤ cut → isCharBoundary text index = false) :
    searchBack text cut = some (stop, cut - stop) := by
  induction cut with
  | zero =>
      obtain rfl : stop = 0 := Nat.le_zero.mp reached
      simp [searchBack, boundary]
  | succ cut ih =>
      by_cases here : stop = cut + 1
      · subst here
        simp [searchBack, boundary]
      · have below : stop ≤ cut := by omega
        have found := ih below fun index above under => last index above (Nat.le_succ_of_le under)
        have off := last (cut + 1) (by omega) (Nat.le_refl _)
        simp only [searchBack, off, Bool.false_eq_true, if_false, found, Option.map_some]
        rw [Nat.succ_sub below]

/-- From inside a text the search needs at most three steps, and what it keeps is the longest
    start of whole characters up to there. -/
theorem exists_searchBack (text : String) (limit : Nat) (long : limit < text.utf8ByteSize) :
    ∃ (kept : String) (steps : Nat), searchBack text limit = some (kept.utf8ByteSize, steps) ∧ steps ≤ 3 ∧
      isCharBoundary text kept.utf8ByteSize = true ∧ sliceTo text kept.utf8ByteSize = some kept ∧
      LongestWithin limit kept text := by
  obtain ⟨kept, rest, char, split, low, high⟩ := exists_char_across text limit long
  have whole : text = kept ++ (String.singleton char ++ rest) := by rw [split, String.append_assoc]
  have boundary : isCharBoundary text kept.utf8ByteSize = true := isCharBoundary_iff.mpr ⟨kept, _, whole, rfl⟩
  -- the character across the limit has at most four bytes and starts no later
  have narrow := char.utf8Size_le_four
  refine ⟨kept, limit - kept.utf8ByteSize, searchBack_eq boundary low ?_, by omega, boundary, ?_, ?_⟩
  · intro index above under
    by_contra reached
    obtain ⟨before, after, whole, rfl⟩ := isCharBoundary_iff.mp (Bool.not_eq_false _ ▸ reached)
    have := size_le_of_before_char (split ▸ whole) (Nat.lt_of_le_of_lt under high)
    omega
  · rw [whole]
    exact sliceTo_append _ _
  · refine ⟨?_, low, ?_⟩
    · rw [whole, String.toList_append]
      exact List.prefix_append _ _
    · rintro other ⟨more, starts⟩ short
      have whole : text = other ++ String.ofList more := String.toList_inj.mp (by simp [starts])
      exact size_le_of_before_char (split ▸ whole) (Nat.lt_of_le_of_lt short high)

end Boundaries

theorem utf8ByteSize_ofList_ascii {chars : List Char} (ascii : ∀ char ∈ chars, char.utf8Size = 1) :
    (String.ofList chars).utf8ByteSize = chars.length := by
  induction chars with
  | nil => rfl
  | cons first rest ih =>
      rw [String.ofList_cons, String.utf8ByteSize_append, String.utf8ByteSize_singleton,
        ascii first List.mem_cons_self, ih fun char inRest => ascii char (List.mem_cons_of_mem _ inRest),
        List.length_cons, Nat.add_comm]

theorem utf8ByteSize_toString (number : Nat) :
    (toString number).utf8ByteSize = (Nat.toDigits 10 number).length := by
  rw [Nat.toString_eq_ofList_toDigits]
  apply utf8ByteSize_ofList_ascii
  intro char digit
  have range := Nat.isDigit_of_mem_toDigits (by decide) (by decide) digit
  simp only [Char.isDigit, Bool.and_eq_true, decide_eq_true_eq] at range
  rw [Char.utf8Size_eq_one_iff]
  exact Nat.le_trans range.2 (by decide)

theorem utf8ByteSize_sizeNote_le {size : Nat} (fits : size < 2 ^ 64) : (sizeNote size).utf8ByteSize ≤ 40 := by
  have digits : (Nat.toDigits 10 size).length ≤ 20 :=
    (Nat.length_toDigits_le_iff (by decide) (by decide)).mpr (Nat.lt_trans fits (by decide))
  have opening : "... (".utf8ByteSize = 5 := by decide
  have closing : " bytes total)".utf8ByteSize = 13 := by decide
  simp only [sizeNote, String.utf8ByteSize_append, utf8ByteSize_toString, opening, closing]
  omega

section Truncation

variable {value kept : String} {steps : Nat}

theorem truncateForLog_of_short (short : value.utf8ByteSize ≤ maxLoggedFieldLen) :
    truncateForLog value = some value :=
  if_pos short

theorem truncateForLog_of_long (long : maxLoggedFieldLen < value.utf8ByteSize)
    (search : searchBack value maxLoggedFieldLen = some (kept.utf8ByteSize, steps))
    (slice : sliceTo value kept.utf8ByteSize = some kept) :
    truncateForLog value = some (kept ++ sizeNote value.utf8ByteSize) := by
  rw [truncateForLog, if_neg (Nat.not_le_of_lt long), search]
  simp [slice]

/-- Whatever the client sent, a field of a log line is written and is bounded. -/
theorem exists_logged (value : String) (fits : value.utf8ByteSize < 2 ^ 64) :
    ∃ logged, truncateForLog value = some logged ∧ logged.utf8ByteSize ≤ maxLoggedFieldLen + 40 := by
  by_cases short : value.utf8ByteSize ≤ maxLoggedFieldLen
  · exact ⟨value, truncateForLog_of_short short, Nat.le_add_right_of_le short⟩
  · have long := Nat.lt_of_not_le short
    obtain ⟨kept, steps, search, -, -, slice, within⟩ := exists_searchBack value maxLoggedFieldLen long
    refine ⟨_, truncateForLog_of_long long search slice, ?_⟩
    rw [String.utf8ByteSize_append]
    exact Nat.add_le_add within.fits (utf8ByteSize_sizeNote_le fits)

end Truncation

/-- A short value is logged as it is. Of a longer one the longest start of whole characters
    is logged, found without a slice off a boundary, and a note of the size. -/
theorem truncateForLog_bounded (value : String) (fits : value.utf8ByteSize < 2 ^ 64) :
    (value.utf8ByteSize ≤ maxLoggedFieldLen → truncateForLog value = some value) ∧
      (maxLoggedFieldLen < value.utf8ByteSize →
        ∃ (kept : String) (steps : Nat),
          searchBack value maxLoggedFieldLen = some (kept.utf8ByteSize, steps) ∧ steps ≤ 3 ∧
            isCharBoundary value kept.utf8ByteSize = true ∧ sliceTo value kept.utf8ByteSize = some kept ∧
            LongestWithin maxLoggedFieldLen kept value ∧
            truncateForLog value = some (kept ++ sizeNote value.utf8ByteSize)) ∧
      ∃ logged, truncateForLog value = some logged ∧ logged.utf8ByteSize ≤ maxLoggedFieldLen + 40 := by
  refine ⟨truncateForLog_of_short, ?_, exists_logged value fits⟩
  intro long
  obtain ⟨kept, steps, search, few, boundary, slice, within⟩ := exists_searchBack value maxLoggedFieldLen long
  exact ⟨kept, steps, search, few, boundary, slice, within, truncateForLog_of_long long search slice⟩

/-- The 512th byte is inside a character here. -/
theorem truncateForLog_bounded_accents :
    (String.ofList ('a' :: List.replicate 300 'é')).utf8ByteSize = 601 ∧
      isCharBoundary (String.ofList ('a' :: List.replicate 300 'é')) maxLoggedFieldLen = false ∧
      ∃ logged, truncateForLog (String.ofList ('a' :: List.replicate 300 'é')) = some logged ∧
        logged.utf8ByteSize ≤ maxLoggedFieldLen + 40 :=
  have size : (String.ofList ('a' :: List.replicate 300 'é')).utf8ByteSize = 601 := by decide +kernel
  ⟨size, by decide +kernel, (truncateForLog_bounded _ (by rw [size]; decide)).2.2⟩

/-- No decision fails to be logged, and the client's parts of its line are bounded. -/
theorem exists_line (identity : Identity) (action : Action) (decision : Decision)
    (identityFits : identity.name.utf8ByteSize < 2 ^ 64) (targetFits : action.target.utf8ByteSize < 2 ^ 64) :
    ∃ line, logDecision identity action decision = some line ∧
      line.identity.utf8ByteSize ≤ maxLoggedFieldLen + 40 ∧ line.target.utf8ByteSize ≤ maxLoggedFieldLen + 40 := by
  obtain ⟨name, named, nameBound⟩ := exists_logged identity.name identityFits
  obtain ⟨target, targeted, targetBound⟩ := exists_logged action.target targetFits
  cases decision with
  | allow =>
      refine ⟨⟨.info, name, action.backend, action.operation, target, action.blastRadius, none, "action allowed"⟩,
        ?_, nameBound, targetBound⟩
      simp [logDecision, named, targeted]
  | block reason =>
      refine ⟨⟨.warn, name, action.backend, action.operation, target, action.blastRadius, some reason,
        "action blocked"⟩, ?_, nameBound, targetBound⟩
      simp [logDecision, named, targeted]

end Audit

end AiProtect
