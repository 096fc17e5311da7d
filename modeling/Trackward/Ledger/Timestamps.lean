import Trackward.ChainCore.Chrono

/-!
# Timestamps in the database

A `timestamptz` column holds a whole number of microseconds since the start of
2000, on a line without leap seconds.  Binding a timestamp to a parameter
divides its nanoseconds by a thousand and rounds toward zero, so the text the
row encoding hashes, which drops digits downward, is not always the text of
what is read back.  `Storable` says when it is.
-/

namespace Trackward.Ledger.Timestamps

open Trackward.ChainCore.Chrono

/-- The seconds from 1970 to 2000. -/
def postgresEpoch : Int := 946684800

/-- A stored timestamp, in the range that is read back. -/
@[ext]
structure Timestamptz where
  micros : Int
  low : -211813488000000000 ≤ micros
  high : micros ≤ (8210266876799 - postgresEpoch) * 10 ^ 6 + 999999
  deriving DecidableEq

/-- The start of 2000. -/
def Timestamptz.zero : Timestamptz :=
  ⟨0, by decide, by decide⟩

/-- The nanoseconds of a timestamp since 2000, without leap seconds. -/
def nanosSince2000 (time : DateTime) : Int :=
  (time.seconds - postgresEpoch) * 10 ^ 9 + time.nanos

/-- Bind a timestamp to a parameter; out of range the statement fails. -/
def toTimestamptz (time : DateTime) : Option Timestamptz :=
  let micros := (nanosSince2000 time).tdiv 1000
  if inRange :
      -211813488000000000 ≤ micros ∧
        micros ≤ (8210266876799 - postgresEpoch) * 10 ^ 6 + 999999 then
    some ⟨micros, inRange.1, inRange.2⟩
  else none

/-- Read a stored timestamp back. -/
def Timestamptz.toDateTime (stored : Timestamptz) : DateTime where
  seconds := postgresEpoch + stored.micros / 10 ^ 6
  nanos := (stored.micros % 10 ^ 6).toNat * 1000
  nanos_lt := by omega
  leap := by omega
  low := by
    have low := stored.low
    simp only [postgresEpoch]
    omega
  high := by
    have high := stored.high
    simp only [postgresEpoch] at high ⊢
    omega

theorem toTimestamptz_eq_some_iff {time : DateTime} {stored : Timestamptz} :
    toTimestamptz time = some stored ↔
      stored.micros = (nanosSince2000 time).tdiv 1000 := by
  unfold toTimestamptz
  dsimp only
  split
  · rw [Option.some.injEq]
    constructor
    · rintro rfl
      rfl
    · intro same
      exact Timestamptz.ext same.symm
  · rename_i outside
    constructor
    · intro absurdity
      cases absurdity
    · intro same
      exact absurd ⟨same ▸ stored.low, same ▸ stored.high⟩ outside

/-- What was stored is stored again unchanged. -/
theorem toTimestamptz_toDateTime (stored : Timestamptz) :
    toTimestamptz stored.toDateTime = some stored := by
  rw [toTimestamptz_eq_some_iff]
  have nanos :
      nanosSince2000 stored.toDateTime = stored.micros * 1000 := by
    simp only [nanosSince2000, Timestamptz.toDateTime]
    omega
  rw [nanos, Int.mul_tdiv_cancel _ (by decide)]

/-! ## Which timestamps survive -/

/--
The timestamps that are read back unchanged down to the microsecond: outside a
leap second, and either from 2000 on or with whole microseconds.
-/
def Storable (time : DateTime) : Prop :=
  time.nanos < 10 ^ 9 ∧
    (postgresEpoch ≤ time.seconds ∨ time.nanos % 1000 = 0)

instance (time : DateTime) : Decidable (Storable time) :=
  inferInstanceAs (Decidable (_ ∧ _))

/-- A timestamp keeps its microseconds in the database iff it is storable. -/
theorem sameMicros_toDateTime_iff
    {time : DateTime} {stored : Timestamptz}
    (bound : toTimestamptz time = some stored) :
    time.SameMicros stored.toDateTime ↔ Storable time := by
  rw [toTimestamptz_eq_some_iff] at bound
  simp only [DateTime.SameMicros, Timestamptz.toDateTime, Storable, bound]
  have bounded := time.nanos_lt
  by_cases after : 0 ≤ nanosSince2000 time
  · -- from 2000 on, rounding toward zero rounds down
    rw [Int.tdiv_eq_ediv_of_nonneg after]
    simp only [nanosSince2000, postgresEpoch] at after ⊢
    omega
  · have negated :
        (nanosSince2000 time).tdiv 1000 =
          -(-nanosSince2000 time / 1000) := by
      rw [← Int.tdiv_eq_ediv_of_nonneg (by omega), Int.neg_tdiv, neg_neg]
    rw [negated]
    simp only [nanosSince2000, postgresEpoch] at after ⊢
    omega

end Trackward.Ledger.Timestamps
