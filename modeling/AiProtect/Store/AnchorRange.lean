import AiProtect.Store.Sqlite
import AiProtect.Store.Valkey
import Mathlib.Algebra.Order.Group.Int
import Mathlib.Algebra.Order.Group.Unbundled.Abs

/-! # The range of the time arithmetic

Timestamps come from a store, windows from the configuration, and either can be any 64-bit
number. What follows says which of them the arithmetic of an anchor is made for, and that
within these the conversions lose less than a millisecond and no order.
-/

namespace AiProtect

/-- The values of an `i64`. -/
def FitsI64 (x : Int) : Prop := -2 ^ 63 ≤ x ∧ x < 2 ^ 63

instance (x : Int) : Decidable (FitsI64 x) := inferInstanceAs (Decidable (_ ∧ _))

theorem wrapI64_fits (x : Int) : FitsI64 (wrapI64 x) := by
  simp only [FitsI64, wrapI64, Int.bmod_def]
  omega

/-- Reduction to `i64` takes away a multiple of its size. -/
theorem wrapI64_eq (x : Int) : ∃ times : Int, wrapI64 x = x + times * 2 ^ 64 := by
  refine ⟨(wrapI64 x - x) / 2 ^ 64, ?_⟩
  simp only [wrapI64, Int.bmod_def]
  omega

/-- The values of an `Instant`. -/
def IsInstant (x : Int) : Prop := -instantLimit ≤ x ∧ x < instantLimit

instance (x : Int) : Decidable (IsInstant x) := inferInstanceAs (Decidable (_ ∧ _))

/-- Neither store deletes a row of this timestamp for its age. -/
structure SurvivesPruning (cutoff timestamp : Int) : Prop where
  sqlite : ∀ (ranking : List String) (maxIdentities : Nat) (identity : String),
    identity ∉ Sqlite.beyondCap ranking maxIdentities →
      Sqlite.keeps ranking cutoff maxIdentities (identity, timestamp) = true
  valkey : ∀ (server : Server) (key other : String), ∀ entry ∈ server other, (ofLex entry).1 = timestamp →
    entry ∈ server.zremrangebyscore key cutoff other

theorem survivesPruning_iff {cutoff timestamp : Int} : SurvivesPruning cutoff timestamp ↔ cutoff ≤ timestamp := by
  constructor
  · intro survives
    have kept := survives.sqlite [] 0 "" List.not_mem_nil
    exact of_decide_eq_true (Bool.and_eq_true_iff.mp kept).1
  · intro young
    constructor
    · intro ranking maxIdentities identity within
      exact Bool.and_eq_true_iff.mpr ⟨decide_eq_true young, decide_eq_true within⟩
    · rintro server key other entry member rfl
      exact SortedSets.Keyspace.mem_zremrangebyscore.mpr ⟨member, fun _ => young⟩

namespace Anchor

/-- The results of the `i64` operations of `toInstant` before they are reduced: of the
    subtraction and, in the branch that has it, of the negation. -/
def toInstantResults (anchor : Anchor) (epochMillis : Int) : List Int :=
  let deltaMillis := wrapI64 (epochMillis - anchor.epochMillis)
  (epochMillis - anchor.epochMillis) :: if 0 ≤ deltaMillis then [] else [-deltaMillis]

/-- The conversion to an `i64` and the sum or difference of `toEpochMillis`. -/
def toEpochMillisResults (anchor : Anchor) (instant : Int) : List Int :=
  if anchor.instant ≤ instant then
    let millis := asMillis (instant - anchor.instant).toNat
    [(millis : Int), anchor.epochMillis + wrapI64 millis]
  else
    let millis := asMillis (anchor.instant - instant).toNat
    [(millis : Int), anchor.epochMillis - wrapI64 millis]

/-- The conversion and the difference of `epochMillisBefore`. -/
def epochMillisBeforeResults (anchor : Anchor) (window : Nat) : List Int :=
  [(asMillis window : Int), anchor.epochMillis - wrapI64 (asMillis window)]

/-- What the arithmetic of an anchor promises of a stored value and a window in seconds:
    nothing overflows, and a row that is not older than the window is kept by both stores. -/
structure InRange (anchor : Anchor) (value : Int) (windowSecs : Nat) : Prop where
  operations : ∀ result ∈ anchor.toInstantResults value, FitsI64 result
  instant : ∀ instant, anchor.toInstant value = some instant →
    instant = anchor.instant + (value - anchor.epochMillis) * 1000000
  notLater : anchor.epochMillisBefore (fromSecs windowSecs) ≤ anchor.epochMillis
  cutoff : FitsI64 (anchor.epochMillis - windowSecs * 1000) →
    anchor.epochMillisBefore (fromSecs windowSecs) = anchor.epochMillis - windowSecs * 1000
  spares : ∀ row, FitsI64 row → anchor.epochMillis - row ≤ windowSecs * 1000 →
    SurvivesPruning (anchor.epochMillisBefore (fromSecs windowSecs)) row

variable {anchor : Anchor} {value : Int} {windowSecs : Nat}

theorem toInstantResults_fit_iff :
    (∀ result ∈ anchor.toInstantResults value, FitsI64 result) ↔
      -2 ^ 63 < value - anchor.epochMillis ∧ value - anchor.epochMillis < 2 ^ 63 := by
  simp only [toInstantResults, List.forall_mem_cons]
  constructor
  · rintro ⟨⟨low, high⟩, negated⟩
    rw [wrapI64_of_fits low high] at negated
    refine ⟨?_, high⟩
    by_contra least
    rw [if_neg (by omega)] at negated
    have fits := (negated _ List.mem_cons_self).2
    omega
  · rintro ⟨low, high⟩
    rw [wrapI64_of_fits (by omega) high]
    refine ⟨⟨by omega, high⟩, ?_⟩
    split
    · exact List.forall_mem_nil _
    · intro result member
      rw [List.mem_singleton.mp member]
      exact ⟨by omega, by omega⟩

theorem asMillis_fromSecs : asMillis (fromSecs windowSecs) = windowSecs * 1000 := by
  simp only [asMillis, fromSecs]
  omega

/-- Only the last reduction counts. -/
theorem epochMillisBefore_fromSecs :
    anchor.epochMillisBefore (fromSecs windowSecs) = wrapI64 (anchor.epochMillis - windowSecs * 1000) := by
  rw [epochMillisBefore, asMillis_fromSecs, wrapI64, wrapI64, wrapI64, Int.sub_bmod_bmod]
  push_cast
  rfl

/-- The age limit keeps every row that is not older than the window, if and only if the
    window reaches back no further than an `i64` does or the limit happens to be the least
    of all. -/
theorem spares_iff (low : 0 ≤ anchor.epochMillis) (high : anchor.epochMillis < 2 ^ 62) :
    (∀ row, FitsI64 row → anchor.epochMillis - row ≤ windowSecs * 1000 →
        SurvivesPruning (anchor.epochMillisBefore (fromSecs windowSecs)) row) ↔
      (windowSecs * 1000 : Int) ≤ anchor.epochMillis + 2 ^ 63 ∨
        (windowSecs * 1000 : Int) % 2 ^ 64 = anchor.epochMillis + 2 ^ 63 := by
  simp only [survivesPruning_iff, epochMillisBefore_fromSecs]
  obtain ⟨times, reduced⟩ := wrapI64_eq (anchor.epochMillis - windowSecs * 1000)
  obtain ⟨least, greatest⟩ := wrapI64_fits (anchor.epochMillis - windowSecs * 1000)
  rw [reduced] at least greatest ⊢
  constructor
  · intro spares
    by_cases near : (windowSecs * 1000 : Int) ≤ anchor.epochMillis + 2 ^ 63
    · exact .inl near
    · have first := spares (-2 ^ 63) ⟨by omega, by omega⟩ (by omega)
      omega
  · rintro (near | wrapped) row ⟨rowLow, rowHigh⟩ inside
    · omega
    · omega

/-- The arithmetic holds for a value and a window if and only if the value is not so far
    before the anchor that its distance leaves `i64`, and the window in milliseconds does
    not reach below the least `i64`, unless it wraps to exactly that. -/
theorem inRange_iff (low : 0 ≤ anchor.epochMillis) (high : anchor.epochMillis < 2 ^ 62) (fits : FitsI64 value)
    (windowSecs : Nat) :
    anchor.InRange value windowSecs ↔
      -2 ^ 63 < value - anchor.epochMillis ∧
        ((windowSecs * 1000 : Int) ≤ anchor.epochMillis + 2 ^ 63 ∨
          (windowSecs * 1000 : Int) % 2 ^ 64 = anchor.epochMillis + 2 ^ 63) := by
  rw [← spares_iff low high]
  constructor
  · intro range
    exact ⟨(toInstantResults_fit_iff.mp range.operations).1, range.spares⟩
  · rintro ⟨near, spares⟩
    have below : value - anchor.epochMillis < 2 ^ 63 := by
      have := fits.2
      omega
    constructor
    case operations => exact toInstantResults_fit_iff.mpr ⟨near, below⟩
    case instant => exact fun _ found => toInstant_of_converts ⟨fits, near, below⟩ found
    case notLater => exact survivesPruning_iff.mp (spares anchor.epochMillis ⟨by omega, by omega⟩ (by omega))
    case cutoff =>
      intro cutoffFits
      rw [epochMillisBefore_fromSecs, wrapI64_of_fits cutoffFits.1 cutoffFits.2]
    case spares => exact spares

/-- A minute of a store that was just written to. -/
theorem inRange_minute :
    let anchor : Anchor := ⟨5000000000, 1700000000000⟩
    anchor.InRange 1699999999000 60 := by
  exact (inRange_iff (by decide) (by decide) (by decide) 60).mpr ⟨by decide, .inl (by decide)⟩

/-- The longest window of a configuration file has the stores delete every row, and the least timestamp is moved to
    the far future. -/
theorem extremes_out_of_range :
    let anchor : Anchor := ⟨5000000000, 1700000000000⟩
    ¬ anchor.InRange 1699999999000 (2 ^ 63 - 1) ∧ ¬ anchor.InRange (-2 ^ 63) 60 := by
  constructor
  · intro range
    have := range.notLater
    revert this
    decide +kernel
  · intro range
    have := range.operations (-2 ^ 63 - 1700000000000) List.mem_cons_self
    revert this
    decide +kernel

section Conversions

variable {instant : Int}

/-- Without overflow, milliseconds are counted from the anchor in both directions. -/
theorem toEpochMillis_of_fits (fits : ∀ result ∈ anchor.toEpochMillisResults instant, FitsI64 result) :
    anchor.toEpochMillis instant =
      if anchor.instant ≤ instant then anchor.epochMillis + (instant - anchor.instant) / 1000000
      else anchor.epochMillis - (anchor.instant - instant) / 1000000 := by
  unfold toEpochMillisResults at fits
  unfold toEpochMillis
  split
  · rename_i later
    rw [if_pos later] at fits
    obtain ⟨millis, sum, -⟩ := by simpa only [List.forall_mem_cons] using fits
    rw [wrapI64_of_fits millis.1 millis.2] at sum ⊢
    rw [wrapI64_of_fits sum.1 sum.2, asMillis]
    omega
  · rename_i earlier
    rw [if_neg earlier] at fits
    obtain ⟨millis, difference, -⟩ := by simpa only [List.forall_mem_cons] using fits
    rw [wrapI64_of_fits millis.1 millis.2] at difference ⊢
    rw [wrapI64_of_fits difference.1 difference.2, asMillis]
    omega

theorem toEpochMillis_mono {other : Int} (fits : ∀ result ∈ anchor.toEpochMillisResults instant, FitsI64 result)
    (otherFits : ∀ result ∈ anchor.toEpochMillisResults other, FitsI64 result) (order : instant ≤ other) :
    anchor.toEpochMillis instant ≤ anchor.toEpochMillis other := by
  rw [toEpochMillis_of_fits fits, toEpochMillis_of_fits otherFits]
  split
  · rw [if_pos (by omega)]
    omega
  · split
    · omega
    · omega

theorem fitsI64_toEpochMillis (anchor : Anchor) (instant : Int) : FitsI64 (anchor.toEpochMillis instant) := by
  unfold toEpochMillis
  split
  · exact wrapI64_fits _
  · exact wrapI64_fits _

theorem distance_of_fits (fits : ∀ result ∈ anchor.toEpochMillisResults instant, FitsI64 result) :
    -2 ^ 63 * 1000000 < instant - anchor.instant ∧ instant - anchor.instant < 2 ^ 63 * 1000000 := by
  unfold toEpochMillisResults at fits
  split at fits
  · have millis := (fits _ List.mem_cons_self).2
    rw [asMillis] at millis
    omega
  · have millis := (fits _ List.mem_cons_self).2
    rw [asMillis] at millis
    omega

/-- What was converted without overflow converts back without overflow. -/
theorem converts_toEpochMillis (fits : ∀ result ∈ anchor.toEpochMillisResults instant, FitsI64 result) :
    anchor.Converts (anchor.toEpochMillis instant) := by
  obtain ⟨low, high⟩ := distance_of_fits fits
  refine ⟨fitsI64_toEpochMillis anchor instant, ?_⟩
  rw [toEpochMillis_of_fits fits]
  split
  · omega
  · omega

/-- The way to milliseconds and back leads towards the anchor, by less than a millisecond. -/
theorem toInstant_toEpochMillis (valid : IsInstant anchor.instant) (instantValid : IsInstant instant)
    (fits : ∀ result ∈ anchor.toEpochMillisResults instant, FitsI64 result) :
    ∃ back, anchor.toInstant (anchor.toEpochMillis instant) = some back ∧
      (anchor.instant ≤ instant → anchor.instant ≤ back ∧ back ≤ instant ∧ instant < back + 1000000) ∧
      (instant ≤ anchor.instant → back ≤ anchor.instant ∧ instant ≤ back ∧ back < instant + 1000000) := by
  have placed := toEpochMillis_of_fits fits
  rw [toInstant_eq (converts_toEpochMillis fits)]
  obtain ⟨low, high⟩ := valid
  obtain ⟨instantLow, instantHigh⟩ := instantValid
  split at placed
  · have millis : (fromMillis (anchor.toEpochMillis instant - anchor.epochMillis).toNat : Int) =
        (instant - anchor.instant) / 1000000 * 1000000 := by
      rw [fromMillis]
      omega
    rw [if_pos (by omega), checkedAdd, millis, if_pos (by omega)]
    exact ⟨_, rfl, by omega, by omega⟩
  · by_cases same : anchor.toEpochMillis instant = anchor.epochMillis
    · rw [same, Int.sub_self, if_pos (le_refl _), fromMillis, checkedAdd]
      simp only [Int.toNat_zero, Nat.zero_mul, Nat.cast_zero, Int.add_zero]
      rw [if_pos high]
      exact ⟨_, rfl, by omega, by omega⟩
    · have millis : (fromMillis (anchor.epochMillis - anchor.toEpochMillis instant).toNat : Int) =
          (anchor.instant - instant) / 1000000 * 1000000 := by
        rw [fromMillis]
        omega
      rw [if_neg (by omega), checkedSub, millis, if_pos (by omega)]
      exact ⟨_, rfl, by omega, by omega⟩

theorem window_of_fits (fits : ∀ result ∈ anchor.epochMillisBeforeResults (fromSecs windowSecs), FitsI64 result) :
    (windowSecs * 1000 : Int) < 2 ^ 63 ∧ FitsI64 (anchor.epochMillis - windowSecs * 1000) := by
  simp only [epochMillisBeforeResults, List.forall_mem_cons, asMillis_fromSecs] at fits
  obtain ⟨window, cutoff, -⟩ := fits
  rw [wrapI64_of_fits window.1 window.2] at cutoff
  push_cast at window cutoff
  exact ⟨window.2, cutoff⟩

/-- An instant of the window is converted without overflow if the age limit is. -/
theorem toEpochMillisResults_fit (fits : FitsI64 anchor.epochMillis)
    (cutoffFits : ∀ result ∈ anchor.epochMillisBeforeResults (fromSecs windowSecs), FitsI64 result)
    (earlier : instant ≤ anchor.instant) (inside : durationSince anchor.instant instant ≤ fromSecs windowSecs) :
    ∀ result ∈ anchor.toEpochMillisResults instant, FitsI64 result := by
  obtain ⟨low, high⟩ := fits
  obtain ⟨window, cutoffLow, -⟩ := window_of_fits cutoffFits
  have millis : asMillis (anchor.instant - instant).toNat ≤ windowSecs * 1000 := by
    simp only [durationSince, fromSecs] at inside
    simp only [asMillis]
    omega
  unfold toEpochMillisResults
  split
  · have none : (asMillis (instant - anchor.instant).toNat : Int) = 0 := by
      simp only [asMillis]
      omega
    simp only [none, List.forall_mem_cons, wrapI64_of_fits (by decide : -2 ^ 63 ≤ 0) (by decide)]
    exact ⟨by decide, ⟨by omega, by omega⟩, List.forall_mem_nil _⟩
  · have exact := wrapI64_of_fits (x := asMillis (anchor.instant - instant).toNat) (by omega) (by omega)
    simp only [exact, List.forall_mem_cons]
    exact ⟨⟨by omega, by omega⟩, ⟨by omega, by omega⟩, List.forall_mem_nil _⟩

/-- What is inside the window at the anchor is not below the age limit. -/
theorem epochMillisBefore_le (fits : FitsI64 anchor.epochMillis)
    (cutoffFits : ∀ result ∈ anchor.epochMillisBeforeResults (fromSecs windowSecs), FitsI64 result)
    (earlier : instant ≤ anchor.instant) (inside : durationSince anchor.instant instant ≤ fromSecs windowSecs) :
    anchor.epochMillisBefore (fromSecs windowSecs) ≤ anchor.toEpochMillis instant := by
  have placed := toEpochMillis_of_fits (toEpochMillisResults_fit fits cutoffFits earlier inside)
  obtain ⟨-, cutoffLow, cutoffHigh⟩ := window_of_fits cutoffFits
  rw [epochMillisBefore_fromSecs, wrapI64_of_fits cutoffLow cutoffHigh, placed]
  simp only [durationSince, fromSecs] at inside
  split
  · omega
  · omega

theorem isSome_toInstant {epochMillis : Int} (converts : anchor.Converts epochMillis)
    (inside : IsInstant (anchor.instant + (epochMillis - anchor.epochMillis) * 1000000)) :
    (anchor.toInstant epochMillis).isSome = true := by
  obtain ⟨low, high⟩ := inside
  rw [toInstant_eq converts]
  split
  · rw [checkedAdd, if_pos (by rw [fromMillis]; omega)]
    rfl
  · rw [checkedSub, if_pos (by rw [fromMillis]; omega)]
    rfl

end Conversions

/-- For all values for which the arithmetic stays in range: a timestamp survives the way to
    an `Instant` and back; later instants have no earlier timestamps; an instant comes back
    within a millisecond, and not from before the anchor to after it; and an instant inside
    the window at the anchor is kept by both stores. -/
theorem conversions_retract (anchor : Anchor) (valid : IsInstant anchor.instant)
    (fits : FitsI64 anchor.epochMillis) :
    (∀ epochMillis, FitsI64 epochMillis → (∀ result ∈ anchor.toInstantResults epochMillis, FitsI64 result) →
        (IsInstant (anchor.instant + (epochMillis - anchor.epochMillis) * 1000000) →
          (anchor.toInstant epochMillis).isSome = true) ∧
        ∀ instant, anchor.toInstant epochMillis = some instant → anchor.toEpochMillis instant = epochMillis) ∧
      (∀ instant other, (∀ result ∈ anchor.toEpochMillisResults instant, FitsI64 result) →
        (∀ result ∈ anchor.toEpochMillisResults other, FitsI64 result) → instant ≤ other →
          anchor.toEpochMillis instant ≤ anchor.toEpochMillis other) ∧
      (∀ instant, IsInstant instant → (∀ result ∈ anchor.toEpochMillisResults instant, FitsI64 result) →
        ∃ back, anchor.toInstant (anchor.toEpochMillis instant) = some back ∧ |back - instant| < 1000000 ∧
          (instant ≤ anchor.instant → back ≤ anchor.instant)) ∧
      ∀ windowSecs instant, (∀ result ∈ anchor.epochMillisBeforeResults (fromSecs windowSecs), FitsI64 result) →
        instant ≤ anchor.instant → durationSince anchor.instant instant ≤ fromSecs windowSecs →
          anchor.epochMillisBefore (fromSecs windowSecs) ≤ anchor.toEpochMillis instant ∧
            SurvivesPruning (anchor.epochMillisBefore (fromSecs windowSecs)) (anchor.toEpochMillis instant) := by
  refine ⟨?_, fun _ _ => toEpochMillis_mono, ?_, ?_⟩
  · intro epochMillis epochFits results
    obtain ⟨low, high⟩ := toInstantResults_fit_iff.mp results
    have converts : anchor.Converts epochMillis := ⟨epochFits, low, high⟩
    exact ⟨isSome_toInstant converts, fun _ found => toEpochMillis_of_toInstant converts found⟩
  · intro instant instantValid results
    obtain ⟨back, converted, after, before⟩ := toInstant_toEpochMillis valid instantValid results
    refine ⟨back, converted, abs_lt.mpr ?_, fun earlier => (before earlier).1⟩
    rcases le_total anchor.instant instant with later | earlier
    · have := after later
      omega
    · have := before earlier
      omega
  · intro windowSecs instant results earlier inside
    have young := epochMillisBefore_le fits results earlier inside
    exact ⟨young, survivesPruning_iff.mpr young⟩

/-- Half a millisecond before the anchor, in a window of a minute. -/
theorem conversions_retract_half :
    let anchor : Anchor := ⟨5000000000, 1700000000000⟩
    (∃ back, anchor.toInstant (anchor.toEpochMillis 4999500000) = some back ∧ |back - 4999500000| < 1000000 ∧
        (4999500000 ≤ anchor.instant → back ≤ anchor.instant)) ∧
      anchor.epochMillisBefore (fromSecs 60) ≤ anchor.toEpochMillis 4999500000 := by
  obtain ⟨-, -, returns, keeps⟩ := conversions_retract ⟨5000000000, 1700000000000⟩ (by decide) (by decide)
  exact ⟨returns 4999500000 (by decide) (by decide +kernel),
    (keeps 60 4999500000 (by decide +kernel) (by decide) (by decide +kernel)).1⟩

end Anchor

end AiProtect
