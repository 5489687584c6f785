import Mathlib.Algebra.Ring.Nat
import Mathlib.Data.Int.ConditionallyCompleteOrder
import Mathlib.Order.ConditionallyCompleteLattice.Basic

/-! # Clock readings and machine integers

An `Instant` is an `Int`, a `Duration` a `Nat`, both counting nanoseconds. On the
64-bit Unix targets the proxy is deployed on, an `Instant` holds a signed 64-bit
number of seconds, which is the range the checked operations test. Integer
arithmetic follows the release profile: it wraps, since no profile turns overflow
checks on.
-/

namespace AiProtect

/-- `Instant::duration_since`, which saturates to zero when `earlier` is later. -/
def durationSince (later earlier : Int) : Nat := (later - earlier).toNat

/-- `Duration::from_secs`. -/
def fromSecs (secs : Nat) : Nat := secs * 1000000000

/-- `Duration::from_millis`. -/
def fromMillis (millis : Nat) : Nat := millis * 1000000

/-- `Duration::as_millis`. -/
def asMillis (duration : Nat) : Nat := duration / 1000000

/-- Every `Instant` lies strictly below this bound and not below its negation. -/
def instantLimit : Int := 2 ^ 63 * 1000000000

/-- `Instant::checked_add`. -/
def checkedAdd (instant : Int) (duration : Nat) : Option Int :=
  if instant + duration < instantLimit then some (instant + duration) else none

/-- `Instant::checked_sub`. -/
def checkedSub (instant : Int) (duration : Nat) : Option Int :=
  if -instantLimit ≤ instant - duration then some (instant - duration) else none

/-- Two's-complement reduction to `i64`. -/
def wrapI64 (x : Int) : Int := x.bmod (2 ^ 64)

/-- The cast `x as u64`. -/
def asU64 (x : Int) : Nat := (x % 2 ^ 64).toNat

/-- The sum `a + b` on `usize`. -/
def addUsize (a b : Nat) : Nat := (a + b) % 2 ^ 64

/-- The digits after the decimal point of `fraction / (10 * scale)`, without
    trailing zeros. -/
def fractionDigits (scale : Nat) : Nat → Nat → String
  | 0, _ => ""
  | places + 1, fraction =>
      if fraction = 0 then "" else toString (fraction / scale) ++
        fractionDigits (scale / 10) places (fraction % scale)

def debugDecimal (whole fraction scale : Nat) (unit : String) : String :=
  if fraction = 0 then s!"{whole}{unit}"
  else s!"{whole}." ++ fractionDigits scale 9 fraction ++ unit

/-- `Duration`'s `Debug` text, in the largest unit that leaves a whole part. -/
def debugDuration (duration : Nat) : String :=
  let secs := duration / 1000000000
  let nanos := duration % 1000000000
  if 0 < secs then debugDecimal secs nanos 100000000 "s"
  else if 1000000 ≤ nanos then debugDecimal (nanos / 1000000) (nanos % 1000000) 100000 "ms"
  else if 1000 ≤ nanos then debugDecimal (nanos / 1000) (nanos % 1000) 100 "µs"
  else debugDecimal nanos 0 1 "ns"

theorem durationSince_le_iff {later earlier : Int} {duration : Nat} :
    durationSince later earlier ≤ duration ↔ later ≤ earlier + duration := by
  simp only [durationSince]
  omega

theorem checkedAdd_eq_some {instant result : Int} {duration : Nat}
    (added : checkedAdd instant duration = some result) : result = instant + duration := by
  unfold checkedAdd at added
  split at added
  · exact (Option.some.inj added).symm
  · cases added

theorem checkedSub_eq_some {instant result : Int} {duration : Nat}
    (subtracted : checkedSub instant duration = some result) : result = instant - duration := by
  unfold checkedSub at subtracted
  split at subtracted
  · exact (Option.some.inj subtracted).symm
  · cases subtracted

theorem wrapI64_of_fits {x : Int} (low : -2 ^ 63 ≤ x) (high : x < 2 ^ 63) : wrapI64 x = x :=
  Int.bmod_eq_of_le (by omega) (by omega)

theorem asU64_of_nonneg {x : Int} (low : 0 ≤ x) (high : x < 2 ^ 64) : asU64 x = x.toNat := by
  rw [asU64, Int.emod_eq_of_lt low high]

theorem addUsize_of_fits {a b : Nat} (fits : a + b < 2 ^ 64) : addUsize a b = a + b :=
  Nat.mod_eq_of_lt fits

end AiProtect
