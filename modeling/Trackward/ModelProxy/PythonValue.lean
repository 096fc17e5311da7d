import Trackward.ChainCore.JsonParser
import Trackward.Lib.TextOrders

/-!
# The values of Python's json module

What `json.loads` returns and what `json.dumps` writes.  Integers are unbounded,
floats are doubles with infinities and a NaN, and a string is a list of code
points, which may be lone surrogates.

How Python prints a float is left open.
-/

namespace Trackward.ModelProxy.PythonValue

open Trackward.ChainCore.CanonicalJson
open Trackward.ChainCore.JsonGrammar
open Trackward.ChainCore.JsonParser
open Trackward.Lib.SeparatedTexts

/-- A code point, surrogates included. -/
abbrev CodePoint := Fin 0x110000

/-- A string of Python. -/
abbrev PyStr := List CodePoint

/-- A finite double: a sign, 53 bits and a power of two. -/
structure Finite where
  negative : Bool
  mantissa : Nat
  exponent : Int
  mantissa_lt : mantissa < 2 ^ 53
  low : -1074 ≤ exponent
  high : exponent ≤ 971
  deriving DecidableEq

/-- A float of Python. -/
inductive PyFloat where
  | finite (value : Finite)
  | infinite (negative : Bool)
  | nan
  deriving DecidableEq

/-- A value that `json.loads` may return. -/
inductive PyValue where
  | none
  | bool (value : Bool)
  | int (value : Int)
  | float (value : PyFloat)
  | str (text : PyStr)
  | list (items : List PyValue)
  | dict (entries : List (PyStr × PyValue))

/-- The entry of a dictionary. -/
abbrev Entry := PyStr × PyValue

namespace PyValue

/-- Induction on the nesting of a value. -/
@[elab_as_elim]
theorem nesting_induction
    {motive : PyValue → Prop}
    (none : motive .none)
    (bool : ∀ value, motive (.bool value))
    (int : ∀ value, motive (.int value))
    (float : ∀ value, motive (.float value))
    (str : ∀ text, motive (.str text))
    (list : ∀ items, (∀ item ∈ items, motive item) → motive (.list items))
    (dict :
      ∀ entries, (∀ entry ∈ entries, motive entry.2) →
        motive (.dict entries))
    (value : PyValue) : motive value := by
  match value with
  | .none => exact none
  | .bool value => exact bool value
  | .int value => exact int value
  | .float value => exact float value
  | .str text => exact str text
  | .list items =>
      apply list
      intro item member
      exact nesting_induction none bool int float str list dict item
  | .dict entries =>
      apply dict
      intro entry present
      exact nesting_induction none bool int float str list dict entry.2
termination_by sizeOf value
decreasing_by
  · have smaller := List.sizeOf_lt_of_mem member
    simp only [PyValue.list.sizeOf_spec]
    omega
  · have smaller := List.sizeOf_lt_of_mem present
    rcases entry with ⟨key, inner⟩
    simp only [PyValue.dict.sizeOf_spec, Prod.mk.sizeOf_spec] at smaller ⊢
    omega

end PyValue

/-! ## Floats -/

/-- The size of a finite float, if it is a whole number. -/
def Finite.whole (value : Finite) : Option Nat :=
  if 0 ≤ value.exponent then
    some (value.mantissa * 2 ^ value.exponent.toNat)
  else if value.mantissa % 2 ^ (-value.exponent).toNat = 0 then
    some (value.mantissa / 2 ^ (-value.exponent).toNat)
  else none

/-- `int(v)` for a float that is a whole number. -/
def PyFloat.toInt : PyFloat → Option Int
  | .finite value =>
      value.whole.map fun size =>
        if value.negative then -(size : Int) else size
  | .infinite _ => none
  | .nan => none

/-- `v.is_integer()` -/
def PyFloat.isInteger (value : PyFloat) : Bool :=
  value.toInt.isSome

/-- How Python prints a float, with `str` and in JSON. -/
structure Printing where
  str : PyFloat → String
  json : PyFloat → List Char

/-! ## Strings -/

/-- The code points of a text. -/
def ofString (text : String) : PyStr :=
  text.toList.map fun symbol => ⟨symbol.toNat, Lib.TextOrders.toNat_lt symbol⟩

/-- The text a string spells, if every surrogate is half of a pair. -/
def spelled : PyStr → Option (List Char)
  | [] => some []
  | [point] =>
      if isHigh point.val || isLow point.val then none
      else some [Char.ofNat point.val]
  | point :: next :: rest =>
      if isHigh point.val then
        if isLow next.val then
          (spelled rest).map fun symbols =>
            Char.ofNat (pairValue point.val next.val) :: symbols
        else none
      else if isLow point.val then none
      else
        (spelled (next :: rest)).map fun symbols =>
          Char.ofNat point.val :: symbols

/-! ## Writing JSON -/

/-- A code unit as an escape. -/
def unitEscape (unit : Nat) : List Char :=
  '\\' :: 'u' :: hex4 unit

/-- The letter that stands for a code point after a backslash. -/
def shortLetter (code : Nat) : Option Char :=
  if code = 0x22 then some '"'
  else if code = 0x5c then some '\\'
  else if code = 0x0a then some 'n'
  else if code = 0x0d then some 'r'
  else if code = 0x09 then some 't'
  else if code = 0x0c then some 'f'
  else if code = 0x08 then some 'b'
  else none

/-- A code point in a literal of ASCII symbols. -/
def escapeAscii (point : CodePoint) : List Char :=
  match shortLetter point.val with
  | some letter => ['\\', letter]
  | none =>
      if 0x20 ≤ point.val ∧ point.val ≤ 0x7e then [Char.ofNat point.val]
      else if point.val < 0x10000 then unitEscape point.val
      else
        unitEscape (0xD800 + (point.val - 0x10000) / 0x400) ++
          unitEscape (0xDC00 + (point.val - 0x10000) % 0x400)

/-- A string literal. -/
def dumpStr (text : PyStr) : List Char :=
  '"' :: ((text.map escapeAscii).flatten ++ ['"'])

section Dumps

variable (printing : Printing)

mutual

/-- `json.dumps` -/
def dumps : PyValue → List Char
  | .none => ['n', 'u', 'l', 'l']
  | .bool true => ['t', 'r', 'u', 'e']
  | .bool false => ['f', 'a', 'l', 's', 'e']
  | .int value => decimal value
  | .float value => printing.json value
  | .str text => dumpStr text
  | .list items => '[' :: (joined ',' ' ' (dumpsItems items) ++ [']'])
  | .dict entries => '{' :: (joined ',' ' ' (dumpsEntries entries) ++ ['}'])

/-- The words of the items of a list. -/
def dumpsItems : List PyValue → List (List Char)
  | [] => []
  | item :: items => dumps item :: dumpsItems items

/-- The words of the entries of a dictionary. -/
def dumpsEntries : List (PyStr × PyValue) → List (List Char)
  | [] => []
  | (key, value) :: entries =>
      (dumpStr key ++ ':' :: ' ' :: dumps value) :: dumpsEntries entries

end

/-- The word of an entry of a dictionary. -/
def dumpsEntry (entry : Entry) : List Char :=
  dumpStr entry.1 ++ ':' :: ' ' :: dumps printing entry.2

theorem dumpsItems_eq_map (items : List PyValue) :
    dumpsItems printing items = items.map (dumps printing) := by
  induction items with
  | nil => rfl
  | cons item items induction => simp [dumpsItems, induction]

theorem dumpsEntries_eq_map (entries : List Entry) :
    dumpsEntries printing entries = entries.map (dumpsEntry printing) := by
  induction entries with
  | nil => rfl
  | cons entry entries induction =>
      rcases entry with ⟨key, value⟩
      simp [dumpsEntries, dumpsEntry, induction]

end Dumps

end Trackward.ModelProxy.PythonValue
