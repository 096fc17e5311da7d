import Trackward.Lib.Rfc3339

/-!
# Timestamps in memory

A `chrono::DateTime<Utc>`: whole seconds since 1970 and nanoseconds, which
reach the second billion only in a leap second, the sixtieth second after a
full minute.  The seconds lie in the range of years chrono supports.

`Formatter` is the part of chrono the row encoding relies on: the RFC 3339 text
with six fractional digits, which drops what is below a microsecond and
nothing else.
-/

namespace Trackward.ChainCore.Chrono

open Trackward.Lib
open Trackward.Lib.Octets

/-- A timestamp in memory. -/
@[ext]
structure DateTime where
  seconds : Int
  nanos : Nat
  nanos_lt : nanos < 2 * 10 ^ 9
  leap : 10 ^ 9 ≤ nanos → seconds % 60 = 59
  low : -8334601228800 ≤ seconds
  high : seconds ≤ 8210266876799
  deriving DecidableEq

namespace DateTime

/-- Timestamps that agree down to the microsecond. -/
def SameMicros (first second : DateTime) : Prop :=
  first.seconds = second.seconds ∧
    first.nanos / 1000 = second.nanos / 1000

instance (first second : DateTime) : Decidable (first.SameMicros second) :=
  inferInstanceAs (Decidable (_ ∧ _))

theorem SameMicros.refl (time : DateTime) : time.SameMicros time :=
  ⟨rfl, rfl⟩

/-- The start of 1970. -/
def epoch : DateTime where
  seconds := 0
  nanos := 0
  nanos_lt := by decide
  leap := by decide
  low := by decide
  high := by decide

/-- The timeline order; a leap second lies between its neighbours. -/
def le (first second : DateTime) : Prop :=
  first.seconds < second.seconds ∨
    first.seconds = second.seconds ∧ first.nanos ≤ second.nanos

instance : LE DateTime := ⟨le⟩

instance (first second : DateTime) : Decidable (first ≤ second) :=
  inferInstanceAs (Decidable (_ ∨ _))

end DateTime

/-- The RFC 3339 text of timestamps with six fractional digits. -/
structure Formatter where
  toRfc3339Micros : DateTime → String
  text_eq_iff :
    ∀ first second,
      toRfc3339Micros first = toRfc3339Micros second ↔
        first.SameMicros second
  short : ∀ time, (utf8 (toRfc3339Micros time)).length < 2 ^ 32

/-- The text of RFC 3339 keeps exactly the microseconds. -/
theorem rfc3339_text_eq_iff (first second : DateTime) :
    Rfc3339.text first.seconds first.nanos =
        Rfc3339.text second.seconds second.nanos ↔
      first.SameMicros second := by
  constructor
  · intro same
    exact
      Rfc3339.text_inj first.nanos_lt second.nanos_lt first.leap
        second.leap same
  · rintro ⟨seconds, micros⟩
    rw [seconds]
    exact Rfc3339.text_eq_of_micros micros

/-- The text of RFC 3339 fits a length of 32 bits. -/
theorem length_rfc3339_text_lt (time : DateTime) :
    (utf8 (Rfc3339.text time.seconds time.nanos)).length < 2 ^ 32 := by
  have low := time.low
  have high := time.high
  have years :
      -400 * 656 ≤ (Rfc3339.dateOfDays (time.seconds / 86400)).year ∧
        (Rfc3339.dateOfDays (time.seconds / 86400)).year ≤ 400 * 656 :=
    Rfc3339.year_bound (by omega) (by omega)
  have symbols :
      (Rfc3339.symbols time.seconds time.nanos).length ≤ 31 :=
    Rfc3339.length_symbols_le time.nanos_lt (by omega)
  have bytes :=
    length_utf8_ofList_le (Rfc3339.symbols time.seconds time.nanos)
  rw [Rfc3339.text]
  omega

/-- The formatter of RFC 3339 is such a formatter. -/
def rfc3339 : Formatter where
  toRfc3339Micros := fun time => Rfc3339.text time.seconds time.nanos
  text_eq_iff := rfc3339_text_eq_iff
  short := length_rfc3339_text_lt

end Trackward.ChainCore.Chrono
