import Trackward.ModelProxy.PythonValue

/-!
# Coercing floats

`to_safe` of the model proxy, which runs over every body before it is posted to
the ledger.
-/

namespace Trackward.ModelProxy.ToSafe

open Trackward.ModelProxy.PythonValue

section ToSafe

variable (printing : Printing)

mutual

/-- Whole floats become integers, other floats become strings. -/
def toSafe : PyValue → PyValue
  | .bool value => .bool value
  | .float value =>
      match value.toInt with
      | some whole => .int whole
      | none => .str (ofString (printing.str value))
  | .dict entries => .dict (toSafeEntries entries)
  | .list items => .list (toSafeItems items)
  | .none => .none
  | .int value => .int value
  | .str text => .str text

/-- The coerced items of a list. -/
def toSafeItems : List PyValue → List PyValue
  | [] => []
  | item :: items => toSafe item :: toSafeItems items

/-- The entries of a dictionary with coerced values. -/
def toSafeEntries : List (PyStr × PyValue) → List (PyStr × PyValue)
  | [] => []
  | (key, value) :: entries => (key, toSafe value) :: toSafeEntries entries

end

/-- An entry with a coerced value. -/
def toSafeEntry (entry : Entry) : Entry :=
  (entry.1, toSafe printing entry.2)

theorem toSafe_list (items : List PyValue) :
    toSafe printing (.list items) = .list (items.map (toSafe printing)) := by
  rw [toSafe]
  congr 1
  induction items with
  | nil => rfl
  | cons item items induction => simp [toSafeItems, induction]

theorem toSafe_dict (entries : List Entry) :
    toSafe printing (.dict entries) =
      .dict (entries.map (toSafeEntry printing)) := by
  rw [toSafe]
  congr 1
  induction entries with
  | nil => rfl
  | cons entry entries induction =>
      rcases entry with ⟨key, value⟩
      simp [toSafeEntries, toSafeEntry, induction]

/-- A float becomes an integer or a string. -/
theorem toSafe_float (value : PyFloat) :
    (∃ whole, value.toInt = some whole ∧
      toSafe printing (.float value) = .int whole) ∨
      value.toInt = none ∧
        toSafe printing (.float value) =
          .str (ofString (printing.str value)) := by
  rw [toSafe]
  cases found : value.toInt with
  | some whole => exact Or.inl ⟨whole, rfl, rfl⟩
  | none => exact Or.inr ⟨rfl, rfl⟩

/-- Coercing twice is coercing once. -/
theorem toSafe_toSafe (value : PyValue) :
    toSafe printing (toSafe printing value) = toSafe printing value := by
  induction value using PyValue.nesting_induction with
  | float value =>
      rcases toSafe_float printing value with ⟨whole, _, same⟩ | ⟨_, same⟩
      · rw [same, toSafe]
      · rw [same, toSafe]
  | list items induction =>
      rw [toSafe_list, toSafe_list, List.map_map]
      congr 1
      exact List.map_congr_left induction
  | dict entries induction =>
      rw [toSafe_dict, toSafe_dict, List.map_map]
      congr 1
      apply List.map_congr_left
      intro entry present
      exact Prod.ext rfl (induction entry present)
  | _ => rfl

end ToSafe

end Trackward.ModelProxy.ToSafe
