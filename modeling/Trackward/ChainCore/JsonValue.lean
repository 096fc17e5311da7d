import Trackward.Lib.KeyedLists
import Mathlib.Algebra.Ring.Int.Defs
import Mathlib.Data.String.Basic

/-!
# JSON values

The values a `serde_json::Value` can hold.  A number is an integer when it
fits in 64 bits, signed or unsigned, and a float otherwise.  An object is a
list of members in any order; the keys of a parsed object are distinct, which
is what `Value.WellFormed` asks of every object that occurs in a value.

`Value.Same` is equality of JSON values: arrays agree item by item, objects
agree up to the order of their members.
-/

namespace Trackward.ChainCore.JsonValue

open Trackward.Lib.KeyedLists

/-- A JSON number: an integer of 64 bits, or the bits of a float. -/
inductive Number where
  | integer (value : Int) (low : -2 ^ 63 ≤ value) (high : value < 2 ^ 64)
  | float (bits : UInt64)
  deriving DecidableEq

namespace Number

/-- The number as a signed integer, if it is one. -/
def asI64 : Number → Option Int
  | .integer value _ _ => if value < 2 ^ 63 then some value else none
  | .float _ => none

/-- The number as an unsigned integer, if it is one. -/
def asU64 : Number → Option Nat
  | .integer value _ _ => if 0 ≤ value then some value.toNat else none
  | .float _ => none

end Number

/-- A JSON value. -/
inductive Value where
  | null
  | bool (value : Bool)
  | number (value : Number)
  | string (value : String)
  | array (items : List Value)
  | object (members : List (String × Value))

/-- The entry of an object. -/
abbrev Member := String × Value

namespace Value

/-- Induction on the nesting of a value. -/
@[elab_as_elim]
theorem nesting_induction
    {motive : Value → Prop}
    (null : motive .null)
    (bool : ∀ value, motive (.bool value))
    (number : ∀ value, motive (.number value))
    (string : ∀ value, motive (.string value))
    (array :
      ∀ items, (∀ item ∈ items, motive item) → motive (.array items))
    (object :
      ∀ members, (∀ member ∈ members, motive member.2) →
        motive (.object members))
    (value : Value) : motive value := by
  match value with
  | .null => exact null
  | .bool value => exact bool value
  | .number value => exact number value
  | .string value => exact string value
  | .array items =>
      apply array
      intro item member
      exact nesting_induction null bool number string array object item
  | .object members =>
      apply object
      intro member present
      exact nesting_induction null bool number string array object member.2
termination_by sizeOf value
decreasing_by
  · have smaller := List.sizeOf_lt_of_mem member
    simp only [Value.array.sizeOf_spec]
    omega
  · have smaller := List.sizeOf_lt_of_mem present
    rcases member with ⟨key, inner⟩
    simp only [Value.object.sizeOf_spec, Prod.mk.sizeOf_spec] at smaller ⊢
    omega

/-! ## Lookups -/

/-- The value under a key of an object. -/
def get (key : String) : Value → Option Value
  | .object members =>
      (members.find? fun member => member.1 = key).map Prod.snd
  | _ => none

/-- The text of a string value. -/
def asStr : Value → Option String
  | .string text => some text
  | _ => none

/-- The items of an array value. -/
def asArray : Value → Option (List Value)
  | .array items => some items
  | _ => none

/-- The signed integer of a number value. -/
def asI64 : Value → Option Int
  | .number parsed => parsed.asI64
  | _ => none

/-! ## Nested values -/

mutual

/-- The value itself and all values nested in it, at any depth. -/
def nested : Value → List Value
  | .array items => .array items :: nestedItems items
  | .object members => .object members :: nestedMembers members
  | .null => [.null]
  | .bool value => [.bool value]
  | .number value => [.number value]
  | .string value => [.string value]

/-- The values nested in the items of an array. -/
def nestedItems : List Value → List Value
  | [] => []
  | item :: items => item.nested ++ nestedItems items

/-- The values nested in the members of an object. -/
def nestedMembers : List (String × Value) → List Value
  | [] => []
  | (_, value) :: members => value.nested ++ nestedMembers members

end

theorem mem_nestedItems {inner : Value} {items : List Value} :
    inner ∈ nestedItems items ↔ ∃ item ∈ items, inner ∈ item.nested := by
  induction items with
  | nil => simp [nestedItems]
  | cons item items induction => simp [nestedItems, induction]

theorem mem_nestedMembers {inner : Value} {members : List Member} :
    inner ∈ nestedMembers members ↔
      ∃ member ∈ members, inner ∈ member.2.nested := by
  induction members with
  | nil => simp [nestedMembers]
  | cons member members induction =>
      rcases member with ⟨key, value⟩
      simp only [nestedMembers, List.mem_append, induction,
        List.mem_cons, exists_eq_or_imp]

/-- The value is not a float. -/
def isInteger : Value → Bool
  | .number (.float _) => false
  | _ => true

/-- The keys of the object, if the value is one, are distinct. -/
def distinctKeys : Value → Bool
  | .object members => decide (members.map Prod.fst).Nodup
  | _ => true

/-- No float occurs in the value. -/
def FloatFree (value : Value) : Prop :=
  ∀ inner ∈ value.nested, inner.isInteger = true

/-- Every object that occurs in the value has distinct keys. -/
def WellFormed (value : Value) : Prop :=
  ∀ inner ∈ value.nested, inner.distinctKeys = true

instance (value : Value) : Decidable value.FloatFree :=
  inferInstanceAs (Decidable (∀ inner ∈ value.nested, inner.isInteger = true))

instance (value : Value) : Decidable value.WellFormed :=
  inferInstanceAs
    (Decidable (∀ inner ∈ value.nested, inner.distinctKeys = true))

/-- What holds of all values in an array holds of it and of its items. -/
theorem forall_nested_array {holds : Value → Prop} {items : List Value} :
    (∀ inner ∈ (Value.array items).nested, holds inner) ↔
      holds (.array items) ∧
        ∀ item ∈ items, ∀ inner ∈ item.nested, holds inner := by
  simp only [nested, List.mem_cons, forall_eq_or_imp, mem_nestedItems]
  apply and_congr_right
  intro _
  constructor
  · intro all item member inner occurs
    exact all inner ⟨item, member, occurs⟩
  · rintro all inner ⟨item, member, occurs⟩
    exact all item member inner occurs

/-- What holds of all values in an object holds of it and of its members. -/
theorem forall_nested_object {holds : Value → Prop} {members : List Member} :
    (∀ inner ∈ (Value.object members).nested, holds inner) ↔
      holds (.object members) ∧
        ∀ member ∈ members, ∀ inner ∈ member.2.nested, holds inner := by
  simp only [nested, List.mem_cons, forall_eq_or_imp, mem_nestedMembers]
  apply and_congr_right
  intro _
  constructor
  · intro all member present inner occurs
    exact all inner ⟨member, present, occurs⟩
  · rintro all inner ⟨member, present, occurs⟩
    exact all member present inner occurs

@[simp]
theorem floatFree_array_iff {items : List Value} :
    (Value.array items).FloatFree ↔ ∀ item ∈ items, item.FloatFree := by
  simp [FloatFree, forall_nested_array, isInteger]

@[simp]
theorem floatFree_object_iff {members : List Member} :
    (Value.object members).FloatFree ↔
      ∀ member ∈ members, member.2.FloatFree := by
  simp [FloatFree, forall_nested_object, isInteger]

@[simp]
theorem wellFormed_array_iff {items : List Value} :
    (Value.array items).WellFormed ↔ ∀ item ∈ items, item.WellFormed := by
  simp [WellFormed, forall_nested_array, distinctKeys]

@[simp]
theorem wellFormed_object_iff {members : List Member} :
    (Value.object members).WellFormed ↔
      (members.map Prod.fst).Nodup ∧
        ∀ member ∈ members, member.2.WellFormed := by
  simp [WellFormed, forall_nested_object, distinctKeys]

/-- What is under a key of a well-formed object is well-formed. -/
theorem WellFormed.get {value inner : Value} {key : String}
    (formed : value.WellFormed) (found : value.get key = some inner) :
    inner.WellFormed := by
  cases value with
  | object members =>
      rcases Option.map_eq_some_iff.mp found with ⟨member, first, rfl⟩
      exact
        (wellFormed_object_iff.mp formed).2 member
          (List.mem_of_find?_eq_some first)
  | _ => cases found

/-- The items of a well-formed array are well-formed. -/
theorem WellFormed.item {value item : Value} {items : List Value}
    (formed : value.WellFormed) (found : value.asArray = some items)
    (member : item ∈ items) : item.WellFormed := by
  cases value with
  | array items' =>
      cases found
      exact wellFormed_array_iff.mp formed item member
  | _ => cases found

/-- Replacing a member keeps the keys of an object distinct. -/
theorem WellFormed.insert {members : List Member} {key : String}
    {inner : Value} (formed : (Value.object members).WellFormed)
    (innerFormed : inner.WellFormed) :
    (Value.object
        (members.filter (fun member => member.1 ≠ key) ++
          [(key, inner)])).WellFormed := by
  rw [wellFormed_object_iff] at formed ⊢
  constructor
  · rw [List.map_append, List.map_cons, List.map_nil,
      List.nodup_append_comm, List.singleton_append, List.nodup_cons]
    constructor
    · simp
    · exact formed.1.sublist (List.filter_sublist.map _)
  · intro member present
    rcases List.mem_append.mp present with kept | added
    · exact formed.2 member (List.mem_of_mem_filter kept)
    · rw [List.mem_singleton.mp added]
      exact innerFormed

/-! ## Equality up to the order of members -/

/-- Equality of JSON values, which ignores the order of object members. -/
inductive Same : Value → Value → Prop where
  | null : Same .null .null
  | bool (value : Bool) : Same (.bool value) (.bool value)
  | number (value : Number) : Same (.number value) (.number value)
  | string (value : String) : Same (.string value) (.string value)
  | array {items items' : List Value}
      (pointwise : List.Forall₂ Same items items') :
      Same (.array items) (.array items')
  | object {members arranged members' : List Member}
      (keys : members.map Prod.fst = arranged.map Prod.fst)
      (values :
        List.Forall₂ Same (members.map Prod.snd) (arranged.map Prod.snd))
      (perm : arranged.Perm members') :
      Same (.object members) (.object members')

/-- Members with the same key and the same value. -/
def SameMember (first second : Member) : Prop :=
  first.1 = second.1 ∧ first.2.Same second.2

/-- Objects are the same when their members agree up to order. -/
theorem same_object_iff {members members' : List Member} :
    (Value.object members).Same (.object members') ↔
      Reordered SameMember members members' := by
  have split :
      ∀ {arranged : List Member},
        List.Forall₂ SameMember members arranged ↔
          members.map Prod.fst = arranged.map Prod.fst ∧
            List.Forall₂ Same (members.map Prod.snd)
              (arranged.map Prod.snd) := by
    intro arranged
    rw [← List.forall₂_eq_eq_eq, List.forall₂_map_left_iff,
      List.forall₂_map_right_iff, List.forall₂_map_left_iff,
      List.forall₂_map_right_iff]
    constructor
    · intro pointwise
      exact ⟨pointwise.imp fun _ _ both => both.1,
        pointwise.imp fun _ _ both => both.2⟩
    · rintro ⟨keys, values⟩
      induction keys with
      | nil => exact .nil
      | cons head _ induction =>
          cases values with
          | cons value values => exact .cons ⟨head, value⟩ (induction values)
  constructor
  · intro same
    cases same with
    | object keys values perm => exact ⟨_, split.mpr ⟨keys, values⟩, perm⟩
  · rintro ⟨arranged, pointwise, perm⟩
    exact .object (split.mp pointwise).1 (split.mp pointwise).2 perm

theorem Same.refl (value : Value) : value.Same value := by
  induction value using nesting_induction with
  | null => exact .null
  | bool value => exact .bool value
  | number value => exact .number value
  | string value => exact .string value
  | array items induction =>
      exact .array (List.forall₂_same.mpr induction)
  | object members induction =>
      apply same_object_iff.mpr
      refine ⟨members, List.forall₂_same.mpr ?_, List.Perm.refl members⟩
      intro member present
      exact ⟨rfl, induction member present⟩

/-- A member of the same object is found under its key. -/
theorem exists_get_of_same {value inner : Value} {members : List Member}
    {key : String} (formed : value.WellFormed)
    (same : value.Same (.object members)) (listed : (key, inner) ∈ members) :
    ∃ found, value.get key = some found ∧ found.Same inner := by
  cases value with
  | object members' =>
      rcases same_object_iff.mp same with ⟨arranged, pointwise, perm⟩
      rcases List.forall₂_iff_get.mp pointwise with ⟨lengths, entries⟩
      rcases List.mem_iff_get.mp (perm.mem_iff.mpr listed) with
        ⟨index, arrangedAt⟩
      have bound : index.1 < members'.length := by
        rw [lengths]
        exact index.2
      have agree := entries index.1 bound index.2
      rw [show arranged.get ⟨index.1, index.2⟩ = (key, inner) from
        arrangedAt] at agree
      have distinct : (members'.map Prod.fst).Nodup :=
        (wellFormed_object_iff.mp formed).1
      have sameKey : (members'.get ⟨index.1, bound⟩).1 = key := agree.1
      refine ⟨(members'.get ⟨index.1, bound⟩).2, ?_, agree.2⟩
      rw [get]
      cases found : members'.find? fun member => member.1 = key with
      | none =>
          have other :=
            List.find?_eq_none.mp found _ (List.get_mem members' ⟨_, bound⟩)
          exact absurd (decide_eq_true sameKey) other
      | some member =>
          have foundKey := List.find?_some found
          rw [decide_eq_true_eq, ← sameKey] at foundKey
          rw [List.inj_on_of_nodup_map distinct (List.mem_of_find?_eq_some found)
            (List.get_mem members' ⟨_, bound⟩) foundKey]
          rfl
  | _ => cases same

end Value

/-- A JSON value as a parser produces it: no object repeats a key. -/
structure Json where
  value : Value
  wellFormed : value.WellFormed

namespace Json

/-- Equality of JSON values, which ignores the order of object members. -/
def Same (first second : Json) : Prop :=
  first.value.Same second.value

theorem Same.refl (json : Json) : json.Same json :=
  Value.Same.refl json.value

/-- No float occurs in the value. -/
def FloatFree (json : Json) : Prop :=
  json.value.FloatFree

instance (json : Json) : Decidable json.FloatFree :=
  inferInstanceAs (Decidable json.value.FloatFree)

/-- The default of a missing JSON member. -/
def null : Json :=
  ⟨.null, by decide⟩

/-! ## Building and reading JSON -/

def string (text : String) : Json where
  value := .string text
  wellFormed := by simp [Value.WellFormed, Value.nested, Value.distinctKeys]

/-- A natural number of 16 bits. -/
def natural (value : UInt16) : Json where
  value :=
    .number
      (.integer value.toNat (by omega)
        (by
          have small := value.toNat_lt
          omega))
  wellFormed := by simp [Value.WellFormed, Value.nested, Value.distinctKeys]

/-- A text or `null`. -/
def optString : Option String → Json
  | some text => string text
  | none => null

/-- An object whose keys are distinct. -/
def object (members : List (String × Json))
    (distinct : (members.map Prod.fst).Nodup := by simp) : Json where
  value := .object (members.map fun member => (member.1, member.2.value))
  wellFormed := by
    rw [Value.wellFormed_object_iff]
    refine ⟨by simpa [Function.comp_def] using distinct, ?_⟩
    intro member present
    rcases List.mem_map.mp present with ⟨inner, _, rfl⟩
    exact inner.2.wellFormed

/-- The value under a key of an object. -/
def get (key : String) (json : Json) : Option Json :=
  match found : json.value.get key with
  | some value => some ⟨value, json.wellFormed.get found⟩
  | none => none

/-- The text of a string value. -/
def asStr (json : Json) : Option String :=
  json.value.asStr

/-- The items of an array value. -/
def asArray (json : Json) : Option (List Json) :=
  match found : json.value.asArray with
  | some items =>
      some (items.attach.map fun item =>
        ⟨item.1, json.wellFormed.item found item.2⟩)
  | none => none

/-- An object with one more member, which replaces one of the same key. -/
def insert (key : String) (inner : Json) (json : Json) : Option Json :=
  match shape : json.value with
  | .object members =>
      some
        ⟨.object
            (members.filter (fun member => member.1 ≠ key) ++
              [(key, inner.value)]),
          (shape ▸ json.wellFormed).insert inner.wellFormed⟩
  | _ => none

end Json

end Trackward.ChainCore.JsonValue
