import Trackward.ModelProxy.Coercion

/-!
# How deep Python follows a value

`to_safe` calls itself on the parts of a list or a dictionary, so every level
of nesting takes frames of the interpreter's stack.  The functions of the json
module are written in C and have limits of their own.  A value that nests too
deep raises `RecursionError`.

Where the stack suffices, `to_safe` is the function without a limit.
-/

namespace Trackward.ModelProxy.RecursionLimits

open Trackward.Lib.Octets
open Trackward.ModelProxy.Coercion
open Trackward.ModelProxy.PythonValue
open Trackward.ModelProxy.ToSafe

/-- An exception of Python. -/
inductive PyError where
  | attribute (name : PyStr)
  | key (name : PyStr)
  | recursion
  | raised (text : PyStr)

/--
The interpreter that runs the proxy.  `json` is what a body stands for, and
`parses` are the values that `json.loads` gets through.  There are `frames`
left when `to_safe` is called, of which a comprehension takes some, too, in
some versions of Python; `json.dumps` nests as deep as `encoder`.

An event with flat members can be posted.
-/
structure Interpreter where
  printing : Printing
  json : Bytes → Option PyValue
  parses : PyValue → Bool
  frames : Nat
  comprehension : Nat
  encoder : Nat
  parses_empty : parses (.dict []) = true
  frames_suffice : 2 * (1 + comprehension) + 1 ≤ frames
  encoder_suffices : 2 ≤ encoder

/-! ## `to_safe` on a stack -/

section ToSafe

variable (printing : Printing) (comprehension : Nat)

mutual

/-- `to_safe` with so many frames left. -/
def toSafeWithin : PyValue → Nat → Except PyError PyValue
  | .list items, frames =>
      if frames < 1 + comprehension then .error .recursion
      else
        (toSafeItemsWithin items (frames - (1 + comprehension))).map .list
  | .dict entries, frames =>
      if frames < 1 + comprehension then .error .recursion
      else
        (toSafeEntriesWithin entries (frames - (1 + comprehension))).map
          .dict
  | value, frames =>
      if frames < 1 then .error .recursion else .ok (toSafe printing value)

/-- The coerced items of a list. -/
def toSafeItemsWithin : List PyValue → Nat → Except PyError (List PyValue)
  | [], _ => .ok []
  | item :: items, frames => do
      let first ← toSafeWithin item frames
      let others ← toSafeItemsWithin items frames
      return first :: others

/-- The entries of a dictionary with coerced values. -/
def toSafeEntriesWithin :
    List (PyStr × PyValue) → Nat → Except PyError (List (PyStr × PyValue))
  | [], _ => .ok []
  | (key, value) :: entries, frames => do
      let first ← toSafeWithin value frames
      let others ← toSafeEntriesWithin entries frames
      return (key, first) :: others

end

mutual

/-- How many frames `to_safe` takes. -/
def framesOf : PyValue → Nat
  | .none => 1
  | .bool _ => 1
  | .int _ => 1
  | .float _ => 1
  | .str _ => 1
  | .list items => framesOfItems items + (1 + comprehension)
  | .dict entries => framesOfEntries entries + (1 + comprehension)

/-- How many frames `to_safe` takes for the items of a list. -/
def framesOfItems : List PyValue → Nat
  | [] => 0
  | item :: items => max (framesOf item) (framesOfItems items)

/-- How many frames `to_safe` takes for the values of a dictionary. -/
def framesOfEntries : List (PyStr × PyValue) → Nat
  | [] => 0
  | (_, value) :: entries => max (framesOf value) (framesOfEntries entries)

end

variable {comprehension}

theorem framesOfEntries_le_iff {entries : List Entry} {bound : Nat} :
    framesOfEntries comprehension entries ≤ bound ↔
      ∀ entry ∈ entries, framesOf comprehension entry.2 ≤ bound := by
  induction entries with
  | nil => simp [framesOfEntries]
  | cons entry entries induction =>
      rcases entry with ⟨key, value⟩
      rw [framesOfEntries, Nat.max_le, induction, List.forall_mem_cons]

/-- What `to_safe` comes to with so many frames. -/
def Comes (comprehension frames : Nat) (value : PyValue) : Prop :=
  toSafeWithin printing comprehension value frames =
    if framesOf comprehension value ≤ frames then
      .ok (toSafe printing value)
    else .error .recursion

theorem toSafeItemsWithin_eq {frames : Nat} {items : List PyValue}
    (each : ∀ item ∈ items, Comes printing comprehension frames item) :
    toSafeItemsWithin printing comprehension items frames =
      if framesOfItems comprehension items ≤ frames then
        .ok (items.map (toSafe printing))
      else .error .recursion := by
  induction items with
  | nil => simp [toSafeItemsWithin, framesOfItems]
  | cons item items induction =>
      rcases List.forall_mem_cons.mp each with ⟨first, rest⟩
      rw [toSafeItemsWithin, first, induction rest, framesOfItems]
      simp only [Nat.max_le]
      by_cases one : framesOf comprehension item ≤ frames
      · by_cases others : framesOfItems comprehension items ≤ frames
        · simp only [if_pos one, if_pos others, if_pos (And.intro one others)]
          rfl
        · simp only [if_pos one, others, and_false, if_false]
          rfl
      · simp only [one, false_and, if_false]
        rfl

theorem toSafeEntriesWithin_eq {frames : Nat} {entries : List Entry}
    (each :
      ∀ entry ∈ entries, Comes printing comprehension frames entry.2) :
    toSafeEntriesWithin printing comprehension entries frames =
      if framesOfEntries comprehension entries ≤ frames then
        .ok (entries.map (toSafeEntry printing))
      else .error .recursion := by
  induction entries with
  | nil => simp [toSafeEntriesWithin, framesOfEntries]
  | cons entry entries induction =>
      rcases entry with ⟨key, value⟩
      rcases List.forall_mem_cons.mp each with ⟨first, rest⟩
      rw [toSafeEntriesWithin, first, induction rest, framesOfEntries]
      simp only [Nat.max_le]
      by_cases one : framesOf comprehension value ≤ frames
      · by_cases others : framesOfEntries comprehension entries ≤ frames
        · simp only [if_pos one, if_pos others, if_pos (And.intro one others)]
          rfl
        · simp only [if_pos one, others, and_false, if_false]
          rfl
      · simp only [one, false_and, if_false]
        rfl

/-- `to_safe` raises an exception exactly if the frames do not suffice. -/
theorem toSafeWithin_eq (value : PyValue) (frames : Nat) :
    toSafeWithin printing comprehension value frames =
      if framesOf comprehension value ≤ frames then
        .ok (toSafe printing value)
      else .error .recursion := by
  induction value using PyValue.nesting_induction generalizing frames with
  | list items induction =>
      have parts :=
        toSafeItemsWithin_eq printing fun item member =>
          induction item member (frames - (1 + comprehension))
      rw [toSafeWithin, parts, toSafe_list, framesOf]
      by_cases short : frames < 1 + comprehension
      · rw [if_pos short, if_neg (by omega)]
      · rw [if_neg short]
        by_cases fits :
            framesOfItems comprehension items ≤
              frames - (1 + comprehension)
        · rw [if_pos fits, if_pos (by omega)]
          rfl
        · rw [if_neg fits, if_neg (by omega)]
          rfl
  | dict entries induction =>
      have parts :=
        toSafeEntriesWithin_eq printing fun entry member =>
          induction entry member (frames - (1 + comprehension))
      rw [toSafeWithin, parts, toSafe_dict, framesOf]
      by_cases short : frames < 1 + comprehension
      · rw [if_pos short, if_neg (by omega)]
      · rw [if_neg short]
        by_cases fits :
            framesOfEntries comprehension entries ≤
              frames - (1 + comprehension)
        · rw [if_pos fits, if_pos (by omega)]
          rfl
        · rw [if_neg fits, if_neg (by omega)]
          rfl
  | none | bool | int | float | str =>
      rw [toSafeWithin, framesOf]
      · by_cases short : frames < 1
        · rw [if_pos short, if_neg (by omega)]
        · rw [if_neg short, if_pos (by omega)]
      all_goals rintro _ ⟨⟩

end ToSafe

/-! ## Nesting -/

section Nesting

theorem nestingEntries_le_iff {entries : List Entry} {bound : Nat} :
    nestingEntries entries ≤ bound ↔
      ∀ entry ∈ entries, nesting entry.2 ≤ bound := by
  induction entries with
  | nil => simp [nestingEntries]
  | cons entry entries induction =>
      rcases entry with ⟨key, value⟩
      rw [nestingEntries, Nat.max_le, induction, List.forall_mem_cons]

/-- A coerced value nests as deep as the value. -/
theorem nesting_toSafe (printing : Printing) (value : PyValue) :
    nesting (toSafe printing value) = nesting value := by
  induction value using PyValue.nesting_induction with
  | float value =>
      rcases toSafe_float printing value with ⟨whole, _, same⟩ | ⟨_, same⟩
      · rw [same]
        rfl
      · rw [same]
        rfl
  | list items induction =>
      rw [toSafe_list, nesting, nesting, Nat.add_right_cancel_iff]
      induction items with
      | nil => rfl
      | cons item items others =>
          rcases List.forall_mem_cons.mp induction with ⟨first, rest⟩
          rw [List.map_cons, nestingItems, nestingItems, first, others rest]
  | dict entries induction =>
      rw [toSafe_dict, nesting, nesting, Nat.add_right_cancel_iff]
      induction entries with
      | nil => rfl
      | cons entry entries others =>
          rcases entry with ⟨key, value⟩
          rcases List.forall_mem_cons.mp induction with ⟨first, rest⟩
          rw [List.map_cons, toSafeEntry, nestingEntries, nestingEntries,
            first, others rest]
  | _ => rfl

end Nesting

/-! ## What can be posted -/

namespace Interpreter

variable (interpreter : Interpreter)

/-- `json.loads`, if it gets through. -/
def loads (body : Bytes) : Option PyValue :=
  (interpreter.json body).filter interpreter.parses

/-- `json.dumps(to_safe(body))`, up to writing the coerced value out. -/
def encode (body : PyValue) : Except PyError PyValue := do
  let safe ←
    toSafeWithin interpreter.printing interpreter.comprehension body
      interpreter.frames
  if nesting safe ≤ interpreter.encoder then return safe
  else .error .recursion

/-- The member of an event is flat enough for `to_safe` and `json.dumps`. -/
def Fits (member : PyValue) : Prop :=
  framesOf interpreter.comprehension member +
        2 * (1 + interpreter.comprehension) ≤
      interpreter.frames ∧
    nesting member + 2 ≤ interpreter.encoder

variable {interpreter}

/-- A value without parts is flat enough. -/
theorem fits_flat {member : PyValue}
    (frames : framesOf interpreter.comprehension member = 1)
    (flat : nesting member = 0) : interpreter.Fits member := by
  have room := interpreter.frames_suffice
  constructor
  · omega
  · rw [flat]
    exact interpreter.encoder_suffices

/-- Whether a value is encoded. -/
theorem encode_eq (body : PyValue) :
    interpreter.encode body =
      if framesOf interpreter.comprehension body ≤ interpreter.frames ∧
          nesting body ≤ interpreter.encoder then
        .ok (toSafe interpreter.printing body)
      else .error .recursion := by
  unfold encode
  rw [toSafeWithin_eq]
  by_cases frames :
      framesOf interpreter.comprehension body ≤ interpreter.frames
  · rw [if_pos frames]
    change
      (if nesting (toSafe interpreter.printing body) ≤ interpreter.encoder
        then _ else _) = _
    rw [nesting_toSafe]
    simp only [frames, true_and]
    rfl
  · rw [if_neg frames, if_neg fun both => frames both.1]
    rfl

/-- What is encoded is coerced. -/
theorem encode_eq_ok {body safe : PyValue}
    (encoded : interpreter.encode body = .ok safe) :
    safe = toSafe interpreter.printing body := by
  rw [encode_eq] at encoded
  split at encoded
  · cases encoded
    rfl
  · cases encoded

theorem exists_encode_iff {body : PyValue} :
    (∃ safe, interpreter.encode body = .ok safe) ↔
      framesOf interpreter.comprehension body ≤ interpreter.frames ∧
        nesting body ≤ interpreter.encoder := by
  rw [encode_eq]
  split
  · rename_i fits
    exact ⟨fun _ => fits, fun _ => ⟨_, rfl⟩⟩
  · rename_i misfits
    refine ⟨?_, fun fits => absurd fits misfits⟩
    rintro ⟨safe, absurdity⟩
    cases absurdity

/-- A dictionary in a dictionary is encoded exactly if its members fit. -/
theorem exists_encode_nested_iff {name inner text : PyStr}
    {members : List Entry} :
    (∃ safe,
        interpreter.encode
            (.dict [(name, .str text), (inner, .dict members)]) =
          .ok safe) ↔
      ∀ member ∈ members, interpreter.Fits member.2 := by
  have room := interpreter.frames_suffice
  have deep := interpreter.encoder_suffices
  have frames :
      framesOf interpreter.comprehension
            (.dict [(name, .str text), (inner, .dict members)]) ≤
          interpreter.frames ↔
        ∀ member ∈ members,
          framesOf interpreter.comprehension member.2 +
              2 * (1 + interpreter.comprehension) ≤
            interpreter.frames := by
    simp only [framesOf, framesOfEntries]
    have bounds :
        framesOfEntries interpreter.comprehension members ≤
            interpreter.frames - 2 * (1 + interpreter.comprehension) ↔
          ∀ member ∈ members,
            framesOf interpreter.comprehension member.2 ≤
              interpreter.frames - 2 * (1 + interpreter.comprehension) :=
      framesOfEntries_le_iff
    constructor
    · intro enough member listed
      have fits := bounds.mp (by omega) member listed
      omega
    · intro enough
      have fits :=
        bounds.mpr fun member listed => by
          have one := enough member listed
          omega
      omega
  have depth :
      nesting (.dict [(name, .str text), (inner, .dict members)]) ≤
          interpreter.encoder ↔
        ∀ member ∈ members, nesting member.2 + 2 ≤ interpreter.encoder := by
    simp only [nesting, nestingEntries]
    have bounds :
        nestingEntries members ≤ interpreter.encoder - 2 ↔
          ∀ member ∈ members, nesting member.2 ≤ interpreter.encoder - 2 :=
      nestingEntries_le_iff
    constructor
    · intro enough member listed
      have fits := bounds.mp (by omega) member listed
      omega
    · intro enough
      have fits :=
        bounds.mpr fun member listed => by
          have one := enough member listed
          omega
      omega
  exact
    exists_encode_iff.trans ((and_congr frames depth).trans forall₂_and.symm)

end Interpreter

end Trackward.ModelProxy.RecursionLimits
