import Trackward.Lib.Octets
import Mathlib.Data.List.Forall2

/-!
# RFC 3339 texts of UTC instants

The text of an instant with six fractional digits and the zone `Z`.  An
instant is a number of seconds since 1970 with nanoseconds, which reach the
second billion only in a leap second and are then printed as second sixty.

The text determines the instant down to the microsecond.
-/

namespace Trackward.Lib.Rfc3339

open Trackward.Lib.Octets

/-! ## Padded numerals -/

/-- A decimal numeral of at least `width` digits. -/
def zeroPadded (width value : Nat) : List Char :=
  List.replicate (width - (Nat.toDigits 10 value).length) '0' ++
    Nat.toDigits 10 value

theorem ofDigitChars_zeroPadded (width value : Nat) :
    Nat.ofDigitChars 10 (zeroPadded width value) 0 = value := by
  simp [zeroPadded, Nat.ofDigitChars_append]

theorem zeroPadded_inj {width first second : Nat}
    (same : zeroPadded width first = zeroPadded width second) :
    first = second := by
  have values := congrArg (Nat.ofDigitChars 10 · 0) same
  simpa only [ofDigitChars_zeroPadded] using values

theorem length_zeroPadded {width value : Nat}
    (positive : 0 < width) (small : value < 10 ^ width) :
    (zeroPadded width value).length = width := by
  have short :=
    (Nat.length_toDigits_le_iff (b := 10) (by decide) positive).mpr small
  simp only [zeroPadded, List.length_append, List.length_replicate]
  omega

/-! ## Fields of fixed width -/

/-- Numerals of given widths, each after its separator. -/
def render : List (Char × Nat) → List Nat → List Char
  | (separator, width) :: shape, value :: values =>
      separator :: zeroPadded width value ++ render shape values
  | _, _ => []

/-- Every value fits the width of its field. -/
def Fits : List (Char × Nat) → List Nat → Prop :=
  List.Forall₂ fun field value => 0 < field.2 ∧ value < 10 ^ field.2

theorem length_render {shape : List (Char × Nat)} {values : List Nat}
    (fits : Fits shape values) :
    (render shape values).length =
      (shape.map fun field => field.2 + 1).sum := by
  induction fits with
  | nil => rfl
  | @cons field value shape values head _ induction =>
      have width := length_zeroPadded head.1 head.2
      simp only [render, List.cons_append, List.length_cons,
        List.length_append, width, induction, List.map_cons, List.sum_cons]
      omega

theorem render_inj
    {shape : List (Char × Nat)} {values values' : List Nat}
    (fits : Fits shape values) (fits' : Fits shape values')
    (same : render shape values = render shape values') :
    values = values' := by
  induction fits generalizing values' with
  | nil =>
      cases fits'
      rfl
  | @cons field value shape values head _ induction =>
      cases fits' with
      | @cons _ value' _ values' head' tail' =>
          simp only [render, List.cons_append, List.cons.injEq, true_and]
            at same
          have split :=
            List.append_inj same (by
              rw [length_zeroPadded head.1 head.2,
                length_zeroPadded head'.1 head'.2])
          rw [zeroPadded_inj split.1, induction tail' split.2]

/-! ## The calendar -/

/-- A day of the Gregorian calendar. -/
structure Date where
  year : Int
  month : Nat
  day : Nat

/-- Where a day lies in its era of 400 years, which starts in March. -/
structure Position where
  era : Int
  century : Nat
  olympiad : Nat
  year : Nat
  day : Nat

/-- The position of a day counted from 1970. -/
def positionOfDays (days : Int) : Position :=
  let shifted := days + 719468
  let inEra := (shifted % 146097).toNat
  let century := min 3 (inEra / 36524)
  let inCentury := inEra - 36524 * century
  let olympiad := inCentury / 1461
  let inOlympiad := inCentury - 1461 * olympiad
  let year := min 3 (inOlympiad / 365)
  { era := shifted / 146097
    century := century
    olympiad := olympiad
    year := year
    day := inOlympiad - 365 * year }

/-- The position determines the day. -/
theorem days_eq_of_position (days : Int) :
    let position := positionOfDays days
    days =
      146097 * position.era + 36524 * position.century +
        1461 * position.olympiad + 365 * position.year + position.day -
          719468 := by
  simp only [positionOfDays]
  omega

theorem position_bounds (days : Int) :
    let position := positionOfDays days
    position.century ≤ 3 ∧ position.olympiad ≤ 24 ∧ position.year ≤ 3 ∧
      position.day ≤ 365 := by
  simp only [positionOfDays]
  omega

/-- The month, counted from March, of a day of the shifted year. -/
def monthIndex (day : Nat) : Nat :=
  (5 * day + 2) / 153

theorem monthIndex_bounds (day : Nat) :
    153 * monthIndex day ≤ 5 * day + 2 ∧
      5 * day + 2 < 153 * monthIndex day + 153 := by
  unfold monthIndex
  omega

/-- The civil date of a position: January and February end a shifted year. -/
def dateOfPosition (position : Position) : Date :=
  let index := monthIndex position.day
  { year :=
      400 * position.era + 100 * position.century + 4 * position.olympiad +
        position.year + if index < 10 then 0 else 1
    month := if index < 10 then index + 3 else index - 9
    day := position.day - (153 * index + 2) / 5 + 1 }

/-- The civil date of a day counted from 1970. -/
def dateOfDays (days : Int) : Date :=
  dateOfPosition (positionOfDays days)

theorem dateOfDays_bounds (days : Int) :
    (dateOfDays days).month < 100 ∧ (dateOfDays days).day < 100 := by
  have bounds := position_bounds days
  have index := monthIndex_bounds (positionOfDays days).day
  simp only [dateOfDays, dateOfPosition] at bounds ⊢
  constructor
  · split <;> omega
  · omega

/-- The shifted year determines its place in the era. -/
theorem year_parts_inj
    {era era' : Int} {century century' olympiad olympiad' year year' : Nat}
    (bounds : century ≤ 3 ∧ olympiad ≤ 24 ∧ year ≤ 3)
    (bounds' : century' ≤ 3 ∧ olympiad' ≤ 24 ∧ year' ≤ 3)
    (same :
      400 * era + 100 * century + 4 * olympiad + year =
        400 * era' + 100 * century' + 4 * olympiad' + year') :
    era = era' ∧ century = century' ∧ olympiad = olympiad' ∧
      year = year' := by
  have eras : era = era' := by omega
  have centuries : century = century' := by omega
  have olympiads : olympiad = olympiad' := by omega
  exact ⟨eras, centuries, olympiads, by omega⟩

/-- The date determines the day. -/
theorem dateOfDays_inj {first second : Int}
    (same : dateOfDays first = dateOfDays second) : first = second := by
  have bounds := position_bounds first
  have bounds' := position_bounds second
  have counted := days_eq_of_position first
  have counted' := days_eq_of_position second
  have index := monthIndex_bounds (positionOfDays first).day
  have index' := monthIndex_bounds (positionOfDays second).day
  simp only [dateOfDays, dateOfPosition, Date.mk.injEq] at same
  rcases same with ⟨year, month, day⟩
  have indexes :
      monthIndex (positionOfDays first).day =
        monthIndex (positionOfDays second).day := by
    split_ifs at month <;> omega
  rw [indexes] at year day index
  have years :=
    year_parts_inj ⟨bounds.1, bounds.2.1, bounds.2.2.1⟩
      ⟨bounds'.1, bounds'.2.1, bounds'.2.2.1⟩ (add_right_cancel year)
  have days : (positionOfDays first).day = (positionOfDays second).day := by
    omega
  rw [counted, counted', years.1, years.2.1, years.2.2.1, years.2.2.2, days]

/-! ## Instants -/

/-- The sign of a year outside the four-digit years. -/
def sign (year : Int) : Char :=
  if year < 0 then '-' else '+'

/-- The digits of a year, signed outside the four-digit years. -/
def yearText (year : Int) : List Char :=
  if 0 ≤ year ∧ year ≤ 9999 then zeroPadded 4 year.natAbs
  else sign year :: zeroPadded 4 year.natAbs

/-- The fields after the year: their separators and widths. -/
def clockShape : List (Char × Nat) :=
  [('-', 2), ('-', 2), ('T', 2), (':', 2), (':', 2), ('.', 6)]

/-- The values of the fields after the year. -/
def clockValues (seconds : Int) (nanos : Nat) : List Nat :=
  let date := dateOfDays (seconds / 86400)
  let inDay := (seconds % 86400).toNat
  [date.month, date.day, inDay / 3600, inDay / 60 % 60,
    inDay % 60 + nanos / 10 ^ 9, nanos % 10 ^ 9 / 1000]

/-- The symbols of the text of an instant. -/
def symbols (seconds : Int) (nanos : Nat) : List Char :=
  yearText (dateOfDays (seconds / 86400)).year ++
    (render clockShape (clockValues seconds nanos) ++ ['Z'])

/-- The text of an instant. -/
def text (seconds : Int) (nanos : Nat) : String :=
  String.ofList (symbols seconds nanos)

example : text 1735689599 1000000000 = "2024-12-31T23:59:60.000000Z" := by
  decide +kernel

theorem clockValues_fit {seconds : Int} {nanos : Nat}
    (bound : nanos < 2 * 10 ^ 9) :
    Fits clockShape (clockValues seconds nanos) := by
  have date := dateOfDays_bounds (seconds / 86400)
  simp only [Fits, clockShape, clockValues, List.forall₂_cons,
    List.forall₂_nil_right_iff]
  refine ⟨⟨by decide, by omega⟩, ⟨by decide, by omega⟩, ⟨by decide, ?_⟩,
    ⟨by decide, ?_⟩, ⟨by decide, ?_⟩, ⟨by decide, ?_⟩, trivial⟩ <;> omega

/-- A padded numeral does not start with a sign. -/
theorem zeroPadded_ne_sign (width value : Nat) (year : Int)
    (tail : List Char) : zeroPadded width value ≠ sign year :: tail := by
  intro padded
  have member : sign year ∈ zeroPadded width value := by
    rw [padded]
    exact List.mem_cons_self
  have digit : (sign year).isDigit = true := by
    rcases List.mem_append.mp member with zero | digit
    · rw [List.eq_of_mem_replicate zero]
      rfl
    · exact Nat.isDigit_of_mem_toDigits (by decide) (by decide) digit
  unfold sign at digit
  split at digit <;> cases digit

theorem yearText_inj {first second : Int}
    (same : yearText first = yearText second) : first = second := by
  unfold yearText at same
  split at same <;> split at same
  · have values := zeroPadded_inj same
    omega
  · exact absurd same (zeroPadded_ne_sign _ _ _ _)
  · exact absurd same.symm (zeroPadded_ne_sign _ _ _ _)
  · rw [List.cons.injEq, sign, sign] at same
    have values := zeroPadded_inj same.2
    have signs := same.1
    split at signs <;> split at signs
    · omega
    · cases signs
    · cases signs
    · omega

/--
The text of an instant determines it down to the microsecond, if nanoseconds
beyond a second occur in leap seconds only.
-/
theorem text_inj
    {seconds seconds' : Int} {nanos nanos' : Nat}
    (bound : nanos < 2 * 10 ^ 9) (bound' : nanos' < 2 * 10 ^ 9)
    (leap : 10 ^ 9 ≤ nanos → seconds % 60 = 59)
    (leap' : 10 ^ 9 ≤ nanos' → seconds' % 60 = 59)
    (same : text seconds nanos = text seconds' nanos') :
    seconds = seconds' ∧ nanos / 1000 = nanos' / 1000 := by
  have streams := String.ofList_injective same
  have lengths :
      (render clockShape (clockValues seconds nanos) ++ ['Z']).length =
        (render clockShape (clockValues seconds' nanos') ++ ['Z']).length := by
    rw [List.length_append, List.length_append,
      length_render (clockValues_fit bound),
      length_render (clockValues_fit bound')]
  have split := List.append_inj' streams lengths
  have years := yearText_inj split.1
  have clocks :=
    render_inj (clockValues_fit bound) (clockValues_fit bound')
      (List.append_cancel_right split.2)
  simp only [clockValues, List.cons.injEq, and_true] at clocks
  rcases clocks with ⟨month, day, hour, minute, second, micros⟩
  have dates :
      dateOfDays (seconds / 86400) = dateOfDays (seconds' / 86400) := by
    rw [Date.mk.injEq]
    exact ⟨years, month, day⟩
  have days := dateOfDays_inj dates
  omega

theorem text_eq_of_micros
    {seconds : Int} {nanos nanos' : Nat}
    (same : nanos / 1000 = nanos' / 1000) :
    text seconds nanos = text seconds nanos' := by
  have high : nanos / 10 ^ 9 = nanos' / 10 ^ 9 := by omega
  have low : nanos % 10 ^ 9 / 1000 = nanos' % 10 ^ 9 / 1000 := by omega
  rw [text, text, symbols, symbols, clockValues, clockValues, high, low]

/-! ## The length of a text -/

/-- The year of an instant stays close to its number of days over 365. -/
theorem year_bound {days : Int} {years : Int}
    (low : -146097 * years ≤ days + 719468)
    (high : days + 719468 < 146097 * years) :
    -400 * years ≤ (dateOfDays days).year ∧
      (dateOfDays days).year ≤ 400 * years := by
  have bounds := position_bounds days
  have era : (positionOfDays days).era = (days + 719468) / 146097 := rfl
  have lower : -years ≤ (positionOfDays days).era := by
    rw [era]
    omega
  have upper : (positionOfDays days).era < years := by
    rw [era]
    omega
  simp only [dateOfDays, dateOfPosition] at bounds ⊢
  split <;> omega

/-- A text with a year of at most six digits is short. -/
theorem length_symbols_le {seconds : Int} {nanos : Nat}
    (bound : nanos < 2 * 10 ^ 9)
    (year : (dateOfDays (seconds / 86400)).year.natAbs < 10 ^ 6) :
    (symbols seconds nanos).length ≤ 31 := by
  have digits :=
    (Nat.length_toDigits_le_iff (b := 10) (by decide) (by decide)).mpr year
  have padded :
      (zeroPadded 4
        (dateOfDays (seconds / 86400)).year.natAbs).length ≤ 6 := by
    simp only [zeroPadded, List.length_append, List.length_replicate]
    omega
  have yearLength :
      (yearText (dateOfDays (seconds / 86400)).year).length ≤ 7 := by
    unfold yearText
    split
    · omega
    · rw [List.length_cons]
      omega
  rw [symbols, List.length_append, List.length_append,
    length_render (clockValues_fit bound)]
  simp only [clockShape, List.map_cons, List.map_nil, List.sum_cons,
    List.sum_nil, List.length_cons, List.length_nil]
  omega

end Trackward.Lib.Rfc3339
