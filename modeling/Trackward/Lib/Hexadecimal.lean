import Trackward.Lib.Octets
import Mathlib.Tactic.IntervalCases

/-!
# Hexadecimal texts

Two lowercase digits for each byte.  Decoding accepts both cases and reports
what is wrong with a text that is not an encoding; it undoes encoding, so
encoding is injective.
-/

namespace Trackward.Lib.Hexadecimal

open Trackward.Lib.Octets

/-- Why a text does not decode. -/
inductive Fault where
  | oddLength
  | invalidCharacter (symbol : Char) (index : Nat)
  deriving DecidableEq

/-- The two digits of a byte. -/
def digits (byte : UInt8) : List Char :=
  [Nat.digitChar (byte.toNat / 16), Nat.digitChar (byte.toNat % 16)]

/-- The text of a byte string. -/
def encode (bytes : Bytes) : String :=
  String.ofList (bytes.map digits).flatten

/-- The value of a digit. -/
def digitValue (symbol : Char) : Option Nat :=
  if '0' ≤ symbol ∧ symbol ≤ '9' then some (symbol.toNat - '0'.toNat)
  else if 'a' ≤ symbol ∧ symbol ≤ 'f' then
    some (symbol.toNat - 'a'.toNat + 10)
  else if 'A' ≤ symbol ∧ symbol ≤ 'F' then
    some (symbol.toNat - 'A'.toNat + 10)
  else none

/-- The digit at an index, or why it is none. -/
def digitAt (index : Nat) (symbol : Char) : Except Fault Nat :=
  match digitValue symbol with
  | some value => .ok value
  | none => .error (.invalidCharacter symbol index)

/-- Decode the digits from an index on. -/
def decodeFrom (index : Nat) : List Char → Except Fault Bytes
  | [] => .ok []
  | [_] => .error .oddLength
  | high :: low :: rest => do
      let highValue ← digitAt index high
      let lowValue ← digitAt (index + 1) low
      let bytes ← decodeFrom (index + 2) rest
      return UInt8.ofNat (16 * highValue + lowValue) :: bytes

/-- The bytes a text stands for. -/
def decode (text : String) : Except Fault Bytes :=
  if text.toList.length % 2 = 0 then decodeFrom 0 text.toList
  else .error .oddLength

theorem digitValue_digitChar (value : Nat) (small : value < 16) :
    digitValue (Nat.digitChar value) = some value := by
  interval_cases value <;> rfl

/-- Decoding reads the digits of each byte back. -/
theorem decodeFrom_digits (index : Nat) (bytes : Bytes) :
    decodeFrom index (bytes.map digits).flatten = .ok bytes := by
  induction bytes generalizing index with
  | nil => rfl
  | cons byte bytes induction =>
      have high := digitValue_digitChar (byte.toNat / 16) (by
        have := byte.toNat_lt
        omega)
      have low := digitValue_digitChar (byte.toNat % 16) (by omega)
      have whole : 16 * (byte.toNat / 16) + byte.toNat % 16 = byte.toNat := by
        omega
      simp only [List.map_cons, List.flatten_cons, digits, List.cons_append,
        List.nil_append, decodeFrom, digitAt, high, low, bind, Except.bind,
        pure, Except.pure, whole, UInt8.ofNat_toNat]
      rw [induction (index + 2)]

theorem length_digits (bytes : Bytes) :
    (bytes.map digits).flatten.length = 2 * bytes.length := by
  induction bytes with
  | nil => rfl
  | cons byte bytes induction =>
      simp only [List.map_cons, List.flatten_cons, List.length_append,
        induction, digits, List.length_cons, List.length_nil]
      omega

/-- Decoding undoes encoding. -/
theorem decode_encode (bytes : Bytes) : decode (encode bytes) = .ok bytes := by
  have even : (encode bytes).toList.length % 2 = 0 := by
    rw [encode, String.toList_ofList, length_digits]
    omega
  rw [decode, if_pos even, encode, String.toList_ofList]
  exact decodeFrom_digits 0 bytes

theorem encode_injective : Function.Injective encode := by
  intro first second same
  have decoded := congrArg decode same
  rw [decode_encode, decode_encode, Except.ok.injEq] at decoded
  exact decoded

/-! ## Bytes of the texts -/

/-- A digit is one byte, which is that of a digit or of a letter. -/
theorem exists_utf8EncodeChar_digitChar {value : Nat} (small : value < 16) :
    ∃ byte : UInt8,
      String.utf8EncodeChar (Nat.digitChar value) = [byte] ∧
        0x30 ≤ byte ∧ byte ≤ 0x66 := by
  interval_cases value
  all_goals exact ⟨_, rfl, by decide, by decide⟩

/-- The bytes of the two digits of a byte. -/
theorem exists_utf8_digits (byte : UInt8) :
    ∃ high low : UInt8,
      (digits byte).flatMap String.utf8EncodeChar = [high, low] ∧
        (0x30 ≤ high ∧ high ≤ 0x66) ∧ 0x30 ≤ low ∧ low ≤ 0x66 := by
  have bounded := byte.toNat_lt
  rcases exists_utf8EncodeChar_digitChar
      (show byte.toNat / 16 < 16 by omega) with
    ⟨high, first, highRange⟩
  rcases exists_utf8EncodeChar_digitChar
      (show byte.toNat % 16 < 16 by omega) with
    ⟨low, second, lowRange⟩
  refine ⟨high, low, ?_, highRange, lowRange⟩
  simp [digits, first, second]

theorem utf8_encode_cons (byte : UInt8) (bytes : Bytes) :
    utf8 (encode (byte :: bytes)) =
      (digits byte).flatMap String.utf8EncodeChar ++ utf8 (encode bytes) := by
  simp [utf8_eq_flatMap, encode]

theorem length_utf8_encode (bytes : Bytes) :
    (utf8 (encode bytes)).length = 2 * bytes.length := by
  induction bytes with
  | nil => rfl
  | cons byte bytes induction =>
      rcases exists_utf8_digits byte with ⟨high, low, two, _⟩
      rw [utf8_encode_cons, two, List.length_append, induction]
      simp only [List.length_cons, List.length_nil]
      omega

theorem range_of_mem_utf8_encode {bytes : Bytes} {byte : UInt8}
    (member : byte ∈ utf8 (encode bytes)) : 0x30 ≤ byte ∧ byte ≤ 0x66 := by
  induction bytes with
  | nil => cases member
  | cons first bytes induction =>
      rcases exists_utf8_digits first with ⟨high, low, two, highRange, lowRange⟩
      rw [utf8_encode_cons, two] at member
      rcases List.mem_append.mp member with new | old
      · rcases List.mem_cons.mp new with rfl | last
        · exact highRange
        · rw [List.mem_singleton.mp last]
          exact lowRange
      · exact induction old

end Trackward.Lib.Hexadecimal
