import Trackward.ChainCore.JsonSoundness

/-!
# Reading JSON texts with serde_json

What the code relies on when `serde_json` reads a `Value`: it accepts the texts
of the grammar whose values nest 127 deep at most, and no others.  Where a text
repeats a key in an object, the last member with the key is kept.
-/

namespace Trackward.ChainCore.SerdeJson

open Trackward.ChainCore.JsonGrammar
open Trackward.ChainCore.JsonNumerals
open Trackward.ChainCore.JsonParser
open Trackward.ChainCore.JsonSoundness
open Trackward.ChainCore.JsonValue
open Trackward.Lib.KeyedLists

/-- How deep the values that are read may nest. -/
def recursionLimit : Nat :=
  127

mutual

/-- How deep arrays and objects nest in a value. -/
def depth : Value → Nat
  | .array items => depthItems items + 1
  | .object members => depthMembers members + 1
  | .null => 0
  | .bool _ => 0
  | .number _ => 0
  | .string _ => 0

/-- How deep the deepest item nests. -/
def depthItems : List Value → Nat
  | [] => 0
  | item :: items => max (depth item) (depthItems items)

/-- How deep the deepest member nests. -/
def depthMembers : List (String × Value) → Nat
  | [] => 0
  | (_, value) :: members => max (depth value) (depthMembers members)

end

theorem depthItems_le {items : List Value} {bound : Nat}
    (each : ∀ item ∈ items, depth item ≤ bound) :
    depthItems items ≤ bound := by
  induction items with
  | nil => exact Nat.zero_le bound
  | cons item items induction =>
      rw [List.forall_mem_cons] at each
      exact Nat.max_le.mpr ⟨each.1, induction each.2⟩

mutual

/-- The value with the last member of each key in every object. -/
def lastWins : Value → Value
  | .array items => .array (lastWinsItems items)
  | .object members => .object (keepLast Prod.fst (lastWinsMembers members))
  | .null => .null
  | .bool value => .bool value
  | .number value => .number value
  | .string text => .string text

/-- The items of an array, each with the last member of each key. -/
def lastWinsItems : List Value → List Value
  | [] => []
  | item :: items => lastWins item :: lastWinsItems items

/-- The members of an object, the inner ones with the last of each key. -/
def lastWinsMembers : List (String × Value) → List (String × Value)
  | [] => []
  | (key, value) :: members => (key, lastWins value) :: lastWinsMembers members

end

theorem lastWins_array (items : List Value) :
    lastWins (.array items) = .array (items.map lastWins) := by
  rw [lastWins]
  congr 1
  induction items with
  | nil => rfl
  | cons item items induction => simp [lastWinsItems, induction]

/-- A member with the last member of each key in its value. -/
def lastWinsMember (member : Member) : Member :=
  (member.1, lastWins member.2)

theorem lastWins_object (members : List Member) :
    lastWins (.object members) =
      .object (keepLast Prod.fst (members.map lastWinsMember)) := by
  have inside : lastWinsMembers members = members.map lastWinsMember := by
    induction members with
    | nil => rfl
    | cons member members induction =>
        rcases member with ⟨key, value⟩
        simp [lastWinsMembers, lastWinsMember, induction]
  rw [lastWins, inside]

/-- No object repeats a key when the last member of each is kept. -/
theorem lastWins_wellFormed (value : Value) : (lastWins value).WellFormed := by
  induction value using Value.nesting_induction with
  | array items induction =>
      rw [lastWins_array, Value.wellFormed_array_iff]
      intro item listed
      rcases List.mem_map.mp listed with ⟨inner, present, rfl⟩
      exact induction inner present
  | object members induction =>
      rw [lastWins_object, Value.wellFormed_object_iff]
      refine ⟨keepLast_nodup Prod.fst _, ?_⟩
      intro member kept
      rcases List.mem_map.mp (mem_of_mem_keepLast kept) with
        ⟨inner, present, rfl⟩
      exact induction inner present
  | _ => simp [lastWins, Value.WellFormed, Value.nested, Value.distinctKeys]

/-- Where no object repeats a key, nothing is dropped. -/
theorem lastWins_eq_self {value : Value} (formed : value.WellFormed) :
    lastWins value = value := by
  induction value using Value.nesting_induction with
  | null | bool | number | string => rfl
  | array items induction =>
      rw [Value.wellFormed_array_iff] at formed
      have kept : items.map lastWins = items.map id := by
        apply List.map_congr_left
        intro item listed
        exact induction item listed (formed item listed)
      rw [lastWins_array, kept, List.map_id]
  | object members induction =>
      rw [Value.wellFormed_object_iff] at formed
      have kept : members.map lastWinsMember = members.map id := by
        apply List.map_congr_left
        intro member listed
        exact
          congrArg (Prod.mk member.1)
            (induction member listed (formed.2 member listed))
      rw [lastWins_object, kept, List.map_id, keepLast_eq_self formed.1]

/-- The parser reads the texts of the grammar that do not nest too deep. -/
structure Reads
    (float : List Char → Option UInt64) (parse : String → Option Json) :
    Prop where
  accepts :
    ∀ (text : String) (value : Value),
      JsonText Blanks (numberOf float) value text.toList →
        depth value ≤ recursionLimit →
          ∃ json, parse text = some json ∧ json.value = lastWins value
  refuses :
    ∀ (text : String) (json : Json), parse text = some json →
      ∃ value, JsonText Blanks (numberOf float) value text.toList ∧
        depth value ≤ recursionLimit

/-- The reader of the grammar, with the limit. -/
def fromStr (float : List Char → Option UInt64) (text : String) :
    Option Json :=
  match readText (numberOf float) text.toList with
  | some value =>
      if depth value ≤ recursionLimit then
        some ⟨lastWins value, lastWins_wellFormed value⟩
      else none
  | none => none

theorem reads_fromStr (float : List Char → Option UInt64) :
    Reads float (fromStr float) where
  accepts := by
    intro text value written shallow
    refine ⟨⟨lastWins value, lastWins_wellFormed value⟩, ?_, rfl⟩
    simp only [fromStr, readText_of_jsonText written, if_pos shallow]
  refuses := by
    intro text json read
    rw [fromStr] at read
    split at read
    case h_2 => cases read
    case h_1 value found =>
        split at read
        case isFalse => cases read
        case isTrue shallow =>
            exact ⟨value, readText_eq_some_iff.mp found, shallow⟩

end Trackward.ChainCore.SerdeJson
