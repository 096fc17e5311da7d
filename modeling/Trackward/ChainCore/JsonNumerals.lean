import Trackward.ChainCore.JsonGrammar
import Trackward.ChainCore.JsonReader
import Mathlib.Data.List.TakeWhile

/-!
# Numerals of JSON texts

A check for the numerals of the grammar, and the numbers they stand for in
readers of 64 bits, which tell integers from floats.  Which float a numeral
stands for is left open.
-/

namespace Trackward.ChainCore.JsonNumerals

open Trackward.ChainCore.JsonGrammar
open Trackward.ChainCore.JsonValue
open Trackward.Lib.PrefixCodes
open Trackward.Lib.SeparatedTexts

/-! ## Numbers -/

/--
The number a numeral stands for: an integer if it is written as one and fits
64 bits, a float otherwise, and a float for a negative zero.  A numeral beyond
the floats stands for no number.
-/
def numberOf (float : List Char → Option UInt64) (word : List Char) :
    Option Number :=
  match JsonReader.readInteger word with
  | some (value, []) =>
      if fits : -2 ^ 63 ≤ value ∧ value < 2 ^ 64 ∧ word ≠ ['-', '0'] then
        some (.integer value fits.1 fits.2.1)
      else (float word).map .float
  | _ => (float word).map .float

/-! ## The check -/

/-- The symbols of numerals. -/
def isNumberSymbol (symbol : Char) : Bool :=
  symbol.isDigit || symbol = '-' || symbol = '+' || symbol = '.' ||
    symbol = 'e' || symbol = 'E'

/-- The part of a numeral after its fraction. -/
def exponentOf (symbols : List Char) : List Char :=
  if symbols.head? = some '.' then symbols.tail.dropWhile Char.isDigit
  else symbols

/-- What comes after the digits is a fraction or none. -/
def startsWithFraction (symbols : List Char) : Bool :=
  if symbols.head? = some '.' then
    !(symbols.tail.takeWhile Char.isDigit).isEmpty
  else true

/-- The digits of an exponent after its mark and its sign. -/
def exponentDigits (symbols : List Char) : List Char :=
  if symbols.head? = some '+' ∨ symbols.head? = some '-' then symbols.tail
  else symbols

/-- An exponent or nothing. -/
def isExponent : List Char → Bool
  | [] => true
  | mark :: symbols =>
      (mark = 'e' || mark = 'E') && !(exponentDigits symbols).isEmpty &&
        (exponentDigits symbols).all Char.isDigit

/-- The symbols of a numeral after its sign. -/
def unsigned (word : List Char) : List Char :=
  if word.head? = some '-' then word.tail else word

/-- Digits without a leading zero. -/
def isWhole (digits : List Char) : Bool :=
  !digits.isEmpty && (digits.head? != some '0' || digits.length == 1)

/-- The word is a numeral. -/
def isNumeral (word : List Char) : Bool :=
  isWhole ((unsigned word).takeWhile Char.isDigit) &&
    startsWithFraction ((unsigned word).dropWhile Char.isDigit) &&
      isExponent (exponentOf ((unsigned word).dropWhile Char.isDigit))

/-! ## The check accepts the numerals -/

/-- Numerals are made of the symbols of numerals. -/
theorem NumberText.symbols {word : List Char} (numeral : NumberText word) :
    ∀ symbol ∈ word, isNumberSymbol symbol = true := by
  have digit : ∀ {digits : List Char}, Digits digits →
      ∀ symbol ∈ digits, isNumberSymbol symbol = true := by
    intro digits run symbol member
    have isDigit : symbol.isDigit = true := run.2 symbol member
    simp [isNumberSymbol, isDigit]
  rcases numeral with ⟨sign, signs, whole, fraction, exponent, rfl, wholeText,
    fractionText, exponentText⟩
  have inSign : ∀ sign ∈ [[], ['+'], ['-']], ∀ symbol ∈ sign,
      isNumberSymbol symbol = true := by
    simp [isNumberSymbol]
  intro symbol member
  rcases List.mem_append.mp member with signed | member
  · apply inSign sign _ symbol signed
    rcases List.mem_cons.mp signs with rfl | signs
    · simp
    · simp [List.mem_singleton.mp signs]
  rcases List.mem_append.mp member with inWhole | member
  · exact digit wholeText.1 symbol inWhole
  rcases List.mem_append.mp member with inFraction | inExponent
  · rcases fractionText with rfl | ⟨digits, rfl, run⟩
    · cases inFraction
    · rcases List.mem_cons.mp inFraction with rfl | later
      · decide
      · exact digit run symbol later
  · rcases exponentText with rfl | ⟨mark, marks, sign', signs', digits, rfl, run⟩
    · cases inExponent
    · rcases List.mem_cons.mp inExponent with rfl | later
      · have inMarks : ∀ mark ∈ ['e', 'E'], isNumberSymbol mark = true := by
          simp [isNumberSymbol]
        exact inMarks symbol marks
      · rcases List.mem_append.mp later with signed | later
        · exact inSign sign' signs' symbol signed
        · exact digit run symbol later

/-- A run of digits is told from what follows. -/
theorem digits_run {digits rest : List Char} (run : Digits digits)
    (stops : Stops IsDigit rest) :
    (digits ++ rest).takeWhile Char.isDigit = digits ∧
      (digits ++ rest).dropWhile Char.isDigit = rest :=
  takeWhile_run run.2 stops

/-- The first of some digits is no sign and no point. -/
theorem Digits.head {digits : List Char} (run : Digits digits) :
    ∃ head tail, digits = head :: tail ∧ IsDigit head ∧ head ≠ '+' ∧
      head ≠ '-' ∧ head ≠ '.' := by
  rcases run with ⟨some, digits'⟩
  cases digits with
  | nil => exact absurd rfl some
  | cons head tail =>
      have digit := digits' head List.mem_cons_self
      refine ⟨head, tail, rfl, digit, ?_, ?_, ?_⟩
      all_goals
        rintro rfl
        cases digit

theorem takeWhile_digits (symbols : List Char) :
    ∀ symbol ∈ symbols.takeWhile Char.isDigit, IsDigit symbol :=
  fun _ member => List.mem_takeWhile_imp member

/-- The check of exponents accepts just the exponents. -/
theorem isExponent_iff (word : List Char) :
    isExponent word = true ↔ ExponentText word := by
  cases word with
  | nil => exact ⟨fun _ => Or.inl rfl, fun _ => rfl⟩
  | cons mark symbols =>
      simp only [isExponent, Bool.and_eq_true, Bool.or_eq_true,
        decide_eq_true_eq, Bool.not_eq_true', List.isEmpty_eq_false_iff,
        List.all_eq_true]
      constructor
      · rintro ⟨⟨marks, nonempty⟩, digits⟩
        refine Or.inr ⟨mark, by simpa using marks, ?_⟩
        by_cases signed :
            symbols.head? = some '+' ∨ symbols.head? = some '-'
        · cases symbols with
          | nil => simp at signed
          | cons sign symbols =>
              simp only [exponentDigits, signed, if_true, List.tail_cons]
                at nonempty digits
              refine ⟨[sign], ?_, symbols, rfl, nonempty, digits⟩
              simpa using signed
        · simp only [exponentDigits, signed, if_false] at nonempty digits
          exact ⟨[], by simp, symbols, rfl, nonempty, digits⟩
      · rintro (empty | ⟨mark', marks, sign, signs, digits, same, run⟩)
        · cases empty
        · cases same
          have kept : exponentDigits (sign ++ digits) = digits := by
            rcases Digits.head run with
              ⟨head, tail, rfl, _, noPlus, noMinus, _⟩
            simp only [List.mem_cons, List.not_mem_nil, or_false] at signs
            rcases signs with rfl | rfl | rfl
            · simp [exponentDigits, noPlus, noMinus]
            · simp [exponentDigits]
            · simp [exponentDigits]
          rw [kept]
          exact ⟨⟨by simpa using marks, run.1⟩, run.2⟩

/-- An exponent starts with its mark. -/
theorem ExponentText.starts {word : List Char} (text : ExponentText word) :
    Stops IsDigit word ∧ word.head? ≠ some '.' := by
  rcases text with rfl | ⟨mark, marks, sign, _, digits, rfl, _⟩
  · constructor
    · intro symbol tail absurdity
      cases absurdity
    · simp
  · simp only [List.mem_cons, List.not_mem_nil, or_false] at marks
    rcases marks with rfl | rfl
    · exact ⟨.cons (by simp [IsDigit]), by simp⟩
    · exact ⟨.cons (by simp [IsDigit]), by simp⟩

/-- What follows the digits is split into fraction and exponent. -/
theorem exponentOf_append {fraction exponent : List Char}
    (text : FractionText fraction) (text' : ExponentText exponent) :
    startsWithFraction (fraction ++ exponent) = true ∧
      exponentOf (fraction ++ exponent) = exponent ∧
        Stops IsDigit (fraction ++ exponent) := by
  have starts := ExponentText.starts text'
  rcases text with rfl | ⟨digits, rfl, run⟩
  · rw [List.nil_append, startsWithFraction, exponentOf, if_neg starts.2,
      if_neg starts.2]
    exact ⟨rfl, rfl, starts.1⟩
  · have split := digits_run run starts.1
    refine ⟨?_, ?_, .cons (by simp [IsDigit])⟩
    · simp [startsWithFraction, split.1, run.1]
    · simp [exponentOf, split.2]

/-- A fraction that the check finds is one. -/
theorem exists_fraction {symbols : List Char}
    (checked : startsWithFraction symbols = true) :
    ∃ fraction, FractionText fraction ∧
      symbols = fraction ++ exponentOf symbols := by
  by_cases pointed : symbols.head? = some '.'
  · cases symbols with
    | nil => simp at pointed
    | cons point symbols =>
        rw [List.head?_cons, Option.some.injEq] at pointed
        subst pointed
        refine ⟨'.' :: symbols.takeWhile Char.isDigit, Or.inr ⟨_, rfl, ?_, ?_⟩,
          ?_⟩
        · simpa [startsWithFraction] using checked
        · exact takeWhile_digits symbols
        · simp [exponentOf, List.takeWhile_append_dropWhile]
  · refine ⟨[], Or.inl rfl, ?_⟩
    rw [exponentOf, if_neg pointed, List.nil_append]

theorem isWhole_iff {digits : List Char}
    (run : ∀ symbol ∈ digits, IsDigit symbol) :
    isWhole digits = true ↔ WholeText digits := by
  rcases digits with _ | ⟨head, _ | ⟨second, others⟩⟩
  · simp [isWhole, WholeText, Digits]
  · simpa [isWhole, WholeText, Digits] using run
  · have leading :
        isWhole (head :: second :: others) = true ↔ head ≠ '0' := by
      simp [isWhole]
    rw [leading]
    constructor
    · intro nonzero
      refine ⟨⟨List.cons_ne_nil _ _, run⟩, ?_⟩
      intro zero
      exact absurd (Option.some.inj zero) nonzero
    · rintro ⟨_, alone⟩ rfl
      cases alone rfl

/-- The sign is told from what follows. -/
theorem unsigned_append {sign rest : List Char} (signs : sign ∈ [[], ['-']])
    (solid : rest.head? ≠ some '-') : unsigned (sign ++ rest) = rest := by
  simp only [List.mem_cons, List.not_mem_nil, or_false] at signs
  rcases signs with rfl | rfl
  · rw [List.nil_append, unsigned, if_neg solid]
  · rfl

theorem exists_sign (word : List Char) :
    ∃ sign ∈ [[], ['-']], word = sign ++ unsigned word := by
  by_cases signed : word.head? = some '-'
  · cases word with
    | nil => simp at signed
    | cons sign rest =>
        rw [List.head?_cons, Option.some.injEq] at signed
        subst signed
        exact ⟨['-'], by simp, rfl⟩
  · refine ⟨[], by simp, ?_⟩
    rw [unsigned, if_neg signed, List.nil_append]

/-- The check accepts just the numerals. -/
theorem isNumeral_iff (word : List Char) :
    isNumeral word = true ↔ NumberText word := by
  rw [isNumeral, Bool.and_eq_true, Bool.and_eq_true]
  constructor
  · rintro ⟨⟨whole, fraction⟩, exponent⟩
    rcases exists_sign word with ⟨sign, signs, split⟩
    rcases exists_fraction fraction with ⟨fraction', text, split'⟩
    refine
      ⟨sign, signs, _, fraction', _, ?_,
        (isWhole_iff (takeWhile_digits _)).mp whole, text,
        (isExponent_iff _).mp exponent⟩
    rw [← split', List.takeWhile_append_dropWhile]
    exact split
  · rintro ⟨sign, signs, whole, fraction, exponent, rfl, wholeText, text,
      text'⟩
    rcases exponentOf_append text text' with ⟨starts, rest, stops⟩
    have split := digits_run wholeText.1 stops
    have solid : (whole ++ (fraction ++ exponent)).head? ≠ some '-' := by
      rcases Digits.head wholeText.1 with ⟨head, tail, rfl, _, _, noMinus, _⟩
      simpa using noMinus
    rw [unsigned_append signs solid, split.1, split.2]
    exact
      ⟨⟨(isWhole_iff wholeText.1.2).mpr wholeText, starts⟩,
        by rw [rest]; exact (isExponent_iff exponent).mpr text'⟩

end Trackward.ChainCore.JsonNumerals
