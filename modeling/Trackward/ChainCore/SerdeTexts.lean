import Trackward.ChainCore.JsonTexts
import Trackward.ChainCore.SerdeJson

/-!
# Writing JSON texts with serde_json

What the code relies on when `serde_json` writes a value: the text is one of the
grammar, without blanks, and stands for the value with its members as they are.

A value that was written is therefore read back, whatever its texts are.  A text
that is JSON itself survives as a string of another text.
-/

namespace Trackward.ChainCore.SerdeTexts

open Trackward.ChainCore.CanonicalJson
open Trackward.ChainCore.JsonGrammar
open Trackward.ChainCore.JsonNumerals
open Trackward.ChainCore.JsonTexts
open Trackward.ChainCore.JsonValue
open Trackward.ChainCore.SerdeJson
open Trackward.Lib.PrefixCodes

/-- The writer writes each value as a text without blanks that stands for it. -/
def Serialises
    (float : List Char → Option UInt64) (write : Value → String) : Prop :=
  ∀ value : Value, value.FloatFree →
    JsonText NoBlanks (numberOf float) value (write value).toList

/-- What was written is read back. -/
theorem exists_parse_of_serialises
    {float : List Char → Option UInt64} {write : Value → String}
    {parse : String → Option Json} (serialises : Serialises float write)
    (reads : Reads float parse) {value : Value} (free : value.FloatFree)
    (formed : value.WellFormed) (shallow : depth value ≤ recursionLimit) :
    ∃ json, parse (write value) = some json ∧ json.value = value := by
  have text := jsonText_of_noBlanks (serialises value free)
  rcases reads.accepts _ value text shallow with ⟨json, parsed, same⟩
  rw [lastWins_eq_self formed] at same
  exact ⟨json, parsed, same⟩

/-! ## A writer -/

section Writer

variable (floatText : UInt64 → List Char)

mutual

/-- The text of a value without blanks, its members as they are. -/
def compact : Value → List Char
  | .null => ['n', 'u', 'l', 'l']
  | .bool true => ['t', 'r', 'u', 'e']
  | .bool false => ['f', 'a', 'l', 's', 'e']
  | .number (.integer value _ _) => decimal value
  | .number (.float bits) => floatText bits
  | .string text => writeString text
  | .array items => '[' :: separated ',' (compactItems items) ++ [']']
  | .object members => '{' :: separated ',' (compactMembers members) ++ ['}']

/-- The texts of the items of an array. -/
def compactItems : List Value → List (List Char)
  | [] => []
  | item :: items => compact item :: compactItems items

/-- The texts of the members of an object. -/
def compactMembers : List (String × Value) → List (List Char)
  | [] => []
  | (key, value) :: members =>
      writeMember key (compact value) :: compactMembers members

end

theorem compactItems_eq_map (items : List Value) :
    compactItems floatText items = items.map (compact floatText) := by
  induction items with
  | nil => rfl
  | cons item items induction => simp [compactItems, induction]

theorem compactMembers_eq_map (members : List Member) :
    compactMembers floatText members =
      members.map fun member =>
        writeMember member.1 (compact floatText member.2) := by
  induction members with
  | nil => rfl
  | cons member members induction =>
      rcases member with ⟨key, value⟩
      simp [compactMembers, induction]

theorem valueText_compact
    (float : List Char → Option UInt64) {value : Value}
    (free : value.FloatFree) :
    ValueText NoBlanks (numberOf float) value (compact floatText value) := by
  induction value using Value.nesting_induction with
  | null => exact .null
  | bool value =>
      cases value
      · exact .false
      · exact .true
  | number number =>
      cases number with
      | float bits =>
          have integer := free _ List.mem_cons_self
          cases integer
      | integer value low high =>
          exact
            .number (numberText_decimal value)
              (numberOf_decimal float value low high)
  | string text => exact .string (stringText_writeString text)
  | array items induction =>
      rw [Value.floatFree_array_iff] at free
      rw [compact, compactItems_eq_map]
      apply valueText_array
      rw [List.forall₂_map_right_iff, List.forall₂_same]
      intro item listed
      exact induction item listed (free item listed)
  | object members induction =>
      rw [Value.floatFree_object_iff] at free
      rw [compact, compactMembers_eq_map]
      apply valueText_object
      rw [List.forall₂_map_right_iff, List.forall₂_same]
      intro member listed
      exact
        memberText_writeString
          (induction member listed (free member listed))

/-- The text of the writer as a string. -/
def compactString (value : Value) : String :=
  String.ofList (compact floatText value)

theorem serialises_compactString (float : List Char → Option UInt64) :
    Serialises float (compactString floatText) := by
  intro value free
  rw [compactString, String.toList_ofList]
  exact jsonText_of_valueText (valueText_compact floatText float free)

end Writer

/-- A text with a quote, a backslash and a line feed, inside a text. -/
example :
    compactString (fun _ => []) (.object [("a", .string "\"\\\n")]) =
      "\x7b\"a\":\"\\\"\\\\\\n\"\x7d" := by
  decide

end Trackward.ChainCore.SerdeTexts
