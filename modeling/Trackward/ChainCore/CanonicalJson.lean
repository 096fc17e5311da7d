import Trackward.ChainCore.JsonValue
import Trackward.Lib.PrefixCodes
import Mathlib.Tactic.IntervalCases

/-!
# Canonical JSON

The text that stands for a JSON value in the row encoding: keys sorted, no
whitespace, minimal escapes.  Integers are printed as they are; a float stops
the writer with a panic.

Two facts are used later.  The writer panics exactly on the values in which a
float occurs, and the text of a value identifies the value up to the order of
object members, even when more text follows.
-/

namespace Trackward.ChainCore.CanonicalJson

open Trackward.Lib.KeyedLists
open Trackward.Lib.PrefixCodes
open Trackward.ChainCore.JsonValue

/-- The ways the functions of this crate abort. -/
inductive Panic where
  | floatNumber (number : Number)
  | tableNotAscii (table : String)
  | tableTooLong
  | tooManyFields
  | duplicateField (name : String)
  | fieldNameNotAscii (name : String)
  | valueTooLong
  | noLeaves
  deriving DecidableEq

/-! ## The writer -/

/-- The decimal text of an integer. -/
def decimal (value : Int) : List Char :=
  if value < 0 then '-' :: Nat.toDigits 10 value.natAbs
  else Nat.toDigits 10 value.natAbs

/-- Four lowercase hexadecimal digits. -/
def hex4 (value : Nat) : List Char :=
  [Nat.digitChar (value / 4096 % 16), Nat.digitChar (value / 256 % 16),
    Nat.digitChar (value / 16 % 16), Nat.digitChar (value % 16)]

/-- A character inside a string literal. -/
def escape (symbol : Char) : List Char :=
  match symbol with
  | '"' => ['\\', '"']
  | '\\' => ['\\', '\\']
  | '\n' => ['\\', 'n']
  | '\r' => ['\\', 'r']
  | '\t' => ['\\', 't']
  | '\x08' => ['\\', 'b']
  | '\x0c' => ['\\', 'f']
  | symbol =>
      if symbol.toNat < 0x20 then '\\' :: 'u' :: hex4 symbol.toNat
      else [symbol]

/-- A string literal. -/
def writeString (text : String) : List Char :=
  '"' :: (text.toList.map escape).flatten ++ ['"']

/-- All results of a list of writers, or the first panic among them. -/
def writeAll {ω : Type} : List (Except Panic ω) → Except Panic (List ω)
  | [] => .ok []
  | result :: results => do
      let word ← result
      let words ← writeAll results
      return word :: words

/-- An object member after its key. -/
def writeMember (key : String) (value : List Char) : List Char :=
  writeString key ++ ':' :: value

mutual

/-- The canonical text of a value. -/
def writeValue : Value → Except Panic (List Char)
  | .null => .ok ['n', 'u', 'l', 'l']
  | .bool true => .ok ['t', 'r', 'u', 'e']
  | .bool false => .ok ['f', 'a', 'l', 's', 'e']
  | .number number =>
      match number.asI64, number.asU64 with
      | some signed, _ => .ok (decimal signed)
      | none, some unsigned => .ok (decimal unsigned)
      | none, none => .error (.floatNumber number)
  | .string text => .ok (writeString text)
  | .array items => do
      let words ← writeAll (writeItems items)
      return '[' :: separated ',' words ++ [']']
  | .object members => do
      let sorted := sortByKey Prod.fst (writeMembers members)
      let words ← writeAll (sorted.map fun member =>
        writeMember member.1 <$> member.2)
      return '{' :: separated ',' words ++ ['}']

/-- The texts of the items of an array. -/
def writeItems : List Value → List (Except Panic (List Char))
  | [] => []
  | item :: items => writeValue item :: writeItems items

/-- The texts of the values of an object, with their keys. -/
def writeMembers :
    List (String × Value) → List (String × Except Panic (List Char))
  | [] => []
  | (key, value) :: members => (key, writeValue value) :: writeMembers members

end

/-- The canonical text of a value as a string. -/
def toCanonicalString (value : Value) : Except Panic String :=
  String.ofList <$> writeValue value

example :
    toCanonicalString
        (.object
          [("b", .object [("y", .bool true), ("x", .null)]),
            ("a", .array [.number (.integer (-7) (by decide) (by decide)),
              .string "\x01\n"])]) =
      .ok "\x7b\"a\":[-7,\"\\u0001\\n\"],\"b\":\x7b\"x\":null,\"y\":true\x7d\x7d" := by
  decide

/-! ## Equations of the writer -/

theorem writeItems_eq_map (items : List Value) :
    writeItems items = items.map writeValue := by
  induction items with
  | nil => rfl
  | cons item items induction => simp [writeItems, induction]

theorem writeMembers_eq_map (members : List Member) :
    writeMembers members =
      members.map fun member => (member.1, writeValue member.2) := by
  induction members with
  | nil => rfl
  | cons member members induction =>
      rcases member with ⟨key, value⟩
      simp [writeMembers, induction]

/-- Every integer is written in decimal, signed or not. -/
theorem writeValue_integer
    (value : Int) (low : -2 ^ 63 ≤ value) (high : value < 2 ^ 64) :
    writeValue (.number (.integer value low high)) =
      .ok (decimal value) := by
  by_cases signed : value < 2 ^ 63
  · simp only [writeValue, Number.asI64, if_pos signed]
  · have unsigned : 0 ≤ value := by omega
    simp only [writeValue, Number.asI64, Number.asU64, if_neg signed,
      if_pos unsigned, Int.toNat_of_nonneg unsigned]

/-- The text of one member of an object. -/
def memberText (member : Member) : Except Panic (List Char) :=
  writeMember member.1 <$> writeValue member.2

theorem writeValue_array (items : List Value) :
    writeValue (.array items) =
      (writeAll (items.map writeValue)).map fun words =>
        '[' :: separated ',' words ++ [']'] := by
  rw [writeValue, writeItems_eq_map]
  rfl

theorem writeValue_object (members : List Member) :
    writeValue (.object members) =
      (writeAll ((sortByKey Prod.fst members).map memberText)).map
        fun words => '{' :: separated ',' words ++ ['}'] := by
  have sorted :
      sortByKey Prod.fst (writeMembers members) =
        (sortByKey Prod.fst members).map
          fun member => (member.1, writeValue member.2) := by
    rw [writeMembers_eq_map]
    exact (map_sortByKey (fun _ => rfl) members).symm
  rw [writeValue, sorted, List.map_map]
  rfl

theorem writeAll_eq_ok_iff
    {ω : Type} {results : List (Except Panic ω)} {words : List ω} :
    writeAll results = .ok words ↔
      List.Forall₂ (fun result word => result = .ok word) results words := by
  induction results generalizing words with
  | nil =>
      constructor
      · intro written
        cases written
        exact .nil
      · intro written
        cases written
        rfl
  | cons result results induction =>
      cases result with
      | error panic =>
          constructor
          · intro written
            cases written
          · intro written
            cases written with
            | cons head _ => cases head
      | ok word =>
          cases rest : writeAll results with
          | error panic =>
              constructor
              · intro written
                simp [writeAll, rest, bind, Except.bind] at written
              · intro written
                cases written with
                | cons _ tail =>
                    rw [← induction, rest] at tail
                    cases tail
          | ok others =>
              constructor
              · intro written
                simp only [writeAll, rest, bind, Except.bind, pure,
                  Except.pure, Except.ok.injEq] at written
                subst written
                exact .cons rfl (induction.mp rest)
              · intro written
                cases written with
                | cons head tail =>
                    cases head
                    rw [← induction, rest] at tail
                    cases tail
                    simp [writeAll, rest, bind, Except.bind, pure, Except.pure]

/-- The words of a list of values that one writer writes. -/
theorem writeAll_map_eq_ok_iff
    {ω ν : Type} {write : ν → Except Panic ω} {values : List ν}
    {words : List ω} :
    writeAll (values.map write) = .ok words ↔
      List.Forall₂ (fun value word => write value = .ok word) values
        words := by
  rw [writeAll_eq_ok_iff, List.forall₂_map_left_iff]

/-! ## Panics -/

/-- A list of writers succeeds when each writer does. -/
theorem writeAll_isOk_iff
    {ω : Type} {results : List (Except Panic ω)} :
    (∃ words, writeAll results = .ok words) ↔
      ∀ result ∈ results, ∃ word, result = .ok word := by
  simp only [writeAll_eq_ok_iff]
  induction results with
  | nil => simp
  | cons result results induction =>
      simp only [List.mem_cons, forall_eq_or_imp, ← induction]
      constructor
      · rintro ⟨words, written⟩
        cases written with
        | cons head tail => exact ⟨⟨_, head⟩, ⟨_, tail⟩⟩
      · rintro ⟨⟨word, head⟩, words, tail⟩
        exact ⟨word :: words, .cons head tail⟩

/-- The writer succeeds exactly on the values without floats. -/
theorem writeValue_isOk_iff (value : Value) :
    (∃ word, writeValue value = .ok word) ↔ value.FloatFree := by
  induction value using Value.nesting_induction with
  | null => simp [writeValue, Value.FloatFree, Value.nested, Value.isInteger]
  | bool value =>
      cases value <;>
        simp [writeValue, Value.FloatFree, Value.nested, Value.isInteger]
  | string text =>
      simp [writeValue, Value.FloatFree, Value.nested, Value.isInteger]
  | number number =>
      cases number with
      | float bits =>
          simp [writeValue, Value.FloatFree, Value.nested, Value.isInteger,
            Number.asI64, Number.asU64]
      | integer value low high =>
          rw [writeValue_integer]
          simp [Value.FloatFree, Value.nested, Value.isInteger]
  | array items induction =>
      rw [writeValue_array, Value.floatFree_array_iff]
      trans ∃ words, writeAll (items.map writeValue) = .ok words
      · cases writeAll (items.map writeValue) <;> simp [Except.map]
      · rw [writeAll_isOk_iff]
        simp only [List.mem_map, forall_exists_index, and_imp,
          forall_apply_eq_imp_iff₂]
        exact forall₂_congr induction
  | object members induction =>
      rw [writeValue_object, Value.floatFree_object_iff]
      trans ∃ words,
        writeAll ((sortByKey Prod.fst members).map memberText) = .ok words
      · cases writeAll ((sortByKey Prod.fst members).map memberText) <;>
          simp [Except.map]
      · rw [writeAll_isOk_iff]
        simp only [List.mem_map, forall_exists_index, and_imp,
          forall_apply_eq_imp_iff₂, mem_sortByKey]
        refine forall₂_congr fun member present => ?_
        rw [← induction member present, memberText]
        cases writeValue member.2 <;> simp [Functor.map, Except.map]

/-- A list of writers fails with the panic of one of them. -/
theorem writeAll_error
    {ω : Type} {results : List (Except Panic ω)} {panic : Panic}
    (failed : writeAll results = .error panic) :
    .error panic ∈ results := by
  induction results with
  | nil => cases failed
  | cons result results induction =>
      cases result with
      | error first =>
          simp only [writeAll, bind, Except.bind, Except.error.injEq]
            at failed
          rw [failed]
          exact List.mem_cons_self
      | ok word =>
          cases rest : writeAll results with
          | ok words =>
              simp [writeAll, rest, bind, Except.bind, pure, Except.pure]
                at failed
          | error later =>
              simp only [writeAll, rest, bind, Except.bind,
                Except.error.injEq] at failed
              rw [failed] at rest
              exact List.mem_cons_of_mem _ (induction rest)

/-- The only panic of the writer is the one about floats. -/
theorem writeValue_error {value : Value} {panic : Panic}
    (failed : writeValue value = .error panic) :
    ∃ number, panic = .floatNumber number := by
  induction value using Value.nesting_induction with
  | null => cases failed
  | bool value => cases value <;> cases failed
  | string text => cases failed
  | number number =>
      simp only [writeValue] at failed
      split at failed
      · cases failed
      · cases failed
      · cases failed
        exact ⟨number, rfl⟩
  | array items induction =>
      rw [writeValue_array] at failed
      cases written : writeAll (items.map writeValue) with
      | ok words => simp [written, Except.map] at failed
      | error first =>
          simp only [written, Except.map, Except.error.injEq] at failed
          subst failed
          rcases List.mem_map.mp (writeAll_error written) with
            ⟨item, present, same⟩
          exact induction item present same
  | object members induction =>
      rw [writeValue_object] at failed
      cases written :
          writeAll ((sortByKey Prod.fst members).map memberText) with
      | ok words => simp [written, Except.map] at failed
      | error first =>
          simp only [written, Except.map, Except.error.injEq] at failed
          subst failed
          rcases List.mem_map.mp (writeAll_error written) with
            ⟨member, sorted, same⟩
          apply induction member (mem_sortByKey.mp sorted)
          cases inner : writeValue member.2 with
          | ok word =>
              simp [memberText, inner, Functor.map, Except.map] at same
          | error later =>
              simpa [memberText, inner, Functor.map, Except.map] using same

/-! ## Reading numbers and strings back -/

/-- A numeral starts with a digit. -/
theorem toDigits_cons (value : Nat) :
    ∃ head tail, Nat.toDigits 10 value = head :: tail ∧ IsDigit head := by
  cases digits : Nat.toDigits 10 value with
  | nil => exact absurd digits Nat.toDigits_ne_nil
  | cons head tail =>
      refine ⟨head, tail, rfl, ?_⟩
      apply Nat.isDigit_of_mem_toDigits (b := 10) (n := value) <;>
        simp [digits]

/-- An integer is read back up to the first symbol that is no digit. -/
theorem decimal_append_inj
    {first second : Int} {rest rest' : List Char}
    (stops : Stops IsDigit rest) (stops' : Stops IsDigit rest')
    (streams : decimal first ++ rest = decimal second ++ rest') :
    first = second ∧ rest = rest' := by
  have noDigit : ¬ IsDigit '-' := by simp [IsDigit]
  unfold decimal at streams
  split at streams <;> split at streams
  · simp only [List.cons_append, List.cons.injEq, true_and] at streams
    have digits := toDigits_append_inj stops stops' streams
    exact ⟨by omega, digits.2⟩
  · rcases toDigits_cons second.natAbs with ⟨head, tail, written, digit⟩
    rw [written, List.cons_append, List.cons_append, List.cons.injEq]
      at streams
    rw [← streams.1] at digit
    exact absurd digit noDigit
  · rcases toDigits_cons first.natAbs with ⟨head, tail, written, digit⟩
    rw [written, List.cons_append, List.cons_append, List.cons.injEq]
      at streams
    rw [streams.1] at digit
    exact absurd digit noDigit
  · have digits := toDigits_append_inj stops stops' streams
    exact ⟨by omega, digits.2⟩

/-- The value of a hexadecimal digit. -/
def hexValue (symbol : Char) : Nat :=
  if symbol.isDigit then symbol.toNat - '0'.toNat
  else symbol.toNat - 'a'.toNat + 10

/-- Read one character of a string literal. -/
def unescape : List Char → Option (Char × List Char)
  | '\\' :: '"' :: rest => some ('"', rest)
  | '\\' :: '\\' :: rest => some ('\\', rest)
  | '\\' :: 'n' :: rest => some ('\n', rest)
  | '\\' :: 'r' :: rest => some ('\r', rest)
  | '\\' :: 't' :: rest => some ('\t', rest)
  | '\\' :: 'b' :: rest => some ('\x08', rest)
  | '\\' :: 'f' :: rest => some ('\x0c', rest)
  | '\\' :: 'u' :: _ :: _ :: high :: low :: rest =>
      some (Char.ofNat (16 * hexValue high + hexValue low), rest)
  | symbol :: rest => some (symbol, rest)
  | [] => none

/-- Control characters are read back. -/
theorem unescape_escape_control
    (code : Nat) (control : code < 32) (rest : List Char) :
    unescape (escape (Char.ofNat code) ++ rest) =
      some (Char.ofNat code, rest) := by
  interval_cases code <;> rfl

/-- All other characters stand for themselves. -/
theorem escape_plain {symbol : Char} (printable : ¬ symbol.toNat < 32)
    (noQuote : symbol ≠ '"') (noBackslash : symbol ≠ '\\') :
    escape symbol = [symbol] := by
  unfold escape
  split
  case h_8 => exact if_neg printable
  all_goals first
    | exact absurd rfl noQuote
    | exact absurd rfl noBackslash
    | exact absurd (by decide) printable

/-- Reading an escaped character gives it back. -/
theorem unescape_escape (symbol : Char) (rest : List Char) :
    unescape (escape symbol ++ rest) = some (symbol, rest) := by
  by_cases control : symbol.toNat < 32
  · have read := unescape_escape_control symbol.toNat control rest
    rwa [Char.ofNat_toNat] at read
  · by_cases quote : symbol = '"'
    · subst quote
      rfl
    · by_cases backslash : symbol = '\\'
      · subst backslash
        rfl
      · rw [escape_plain control quote backslash, List.singleton_append]
        unfold unescape
        split
        case h_9 same =>
            rcases List.cons.inj same with ⟨rfl, rfl⟩
            rfl
        case h_10 same => cases same
        -- the other cases start with a backslash
        all_goals
          rename_i same
          exact absurd (List.cons.inj same).1 backslash

/-- No escape starts with the quote that closes a literal. -/
theorem escape_opens (symbol : Char) :
    ∃ head tail, escape symbol = head :: tail ∧ head ≠ '"' := by
  unfold escape
  split
  all_goals first
    | exact ⟨_, _, rfl, by decide⟩
    | skip
  rename_i noQuote _ _ _ _ _ _
  split
  · exact ⟨_, _, rfl, by decide⟩
  · exact ⟨symbol, [], rfl, noQuote⟩

/-- A string literal is read back from a stream. -/
theorem writeString_append_inj
    {first second : String} {rest rest' : List Char}
    (streams : writeString first ++ rest = writeString second ++ rest') :
    first = second ∧ rest = rest' := by
  simp only [writeString, List.cons_append, List.append_assoc,
    List.cons.injEq, true_and, List.nil_append] at streams
  have escapes :
      ∀ symbols : List Char,
        List.Forall₂ (fun symbol word => escape symbol = word) symbols
          (symbols.map escape) := by
    intro symbols
    simp [List.forall₂_map_right_iff, List.forall₂_same]
  have read : List.Forall₂ Eq first.toList second.toList ∧ rest = rest' :=
    terminated_inj
      (by
        rintro symbol word rfl
        exact escape_opens symbol)
      (by
        rintro symbol _ word second word' rest rest' rfl rfl _ _ same
        have decoded := congrArg unescape same
        rw [unescape_escape, unescape_escape, Option.some.injEq,
          Prod.mk.injEq] at decoded
        exact decoded)
      (escapes first.toList) (escapes second.toList) streams
  rw [List.forall₂_eq_eq_eq] at read
  exact ⟨String.toList_inj.mp read.1, read.2⟩

/-! ## Reading values back -/

/-- The shapes of JSON values. -/
inductive Shape where
  | null
  | bool (value : Bool)
  | number
  | string
  | array
  | object
  deriving DecidableEq

/-- The shape of a value. -/
def shapeOf : Value → Shape
  | .null => .null
  | .bool value => .bool value
  | .number _ => .number
  | .string _ => .string
  | .array _ => .array
  | .object _ => .object

/-- The shape a first symbol announces, if texts can start with it. -/
def announces (symbol : Char) : Option Shape :=
  if symbol = 'n' then some .null
  else if symbol = 't' then some (.bool true)
  else if symbol = 'f' then some (.bool false)
  else if symbol = '"' then some .string
  else if symbol = '[' then some .array
  else if symbol = '{' then some .object
  else if symbol = '-' ∨ symbol.isDigit then some .number
  else none

theorem announces_digit {symbol : Char} (digit : IsDigit symbol) :
    announces symbol = some .number := by
  unfold announces
  split_ifs with isN isT isF isQuote isBracket isBrace isNumeral
  all_goals first
    | rfl
    | subst symbol
      simp [IsDigit] at digit
    | exact absurd (Or.inr digit) isNumeral

theorem decimal_cons (value : Int) :
    ∃ head tail, decimal value = head :: tail ∧
      announces head = some .number := by
  unfold decimal
  split
  · exact ⟨'-', _, rfl, by decide⟩
  · rcases toDigits_cons value.natAbs with ⟨head, tail, written, digit⟩
    exact ⟨head, tail, written, announces_digit digit⟩

/-- The first symbol of a text announces the shape of the value. -/
theorem writeValue_cons {value : Value} {word : List Char}
    (written : writeValue value = .ok word) :
    ∃ head tail, word = head :: tail ∧
      announces head = some (shapeOf value) := by
  cases value with
  | null =>
      cases written
      exact ⟨_, _, rfl, rfl⟩
  | bool value =>
      cases value <;>
        · cases written
          exact ⟨_, _, rfl, rfl⟩
  | number number =>
      cases number with
      | integer value low high =>
          rw [writeValue_integer] at written
          cases written
          exact decimal_cons value
      | float bits => cases written
  | string text =>
      cases written
      exact ⟨_, _, rfl, rfl⟩
  | array items =>
      rw [writeValue_array] at written
      cases items : writeAll (items.map writeValue) with
      | error panic => simp [items, Except.map] at written
      | ok words =>
          simp only [items, Except.map, Except.ok.injEq] at written
          subst written
          exact ⟨_, _, rfl, rfl⟩
  | object members =>
      rw [writeValue_object] at written
      cases texts :
          writeAll ((sortByKey Prod.fst members).map memberText) with
      | error panic => simp [texts, Except.map] at written
      | ok words =>
          simp only [texts, Except.map, Except.ok.injEq] at written
          subst written
          exact ⟨_, _, rfl, rfl⟩

/-- The text of an array is made of the texts of its items. -/
theorem writeValue_array_eq_ok {items : List Value} {word : List Char}
    (written : writeValue (.array items) = .ok word) :
    ∃ words,
      List.Forall₂ (fun item word => writeValue item = .ok word) items
          words ∧
        word = '[' :: separated ',' words ++ [']'] := by
  rw [writeValue_array] at written
  cases texts : writeAll (items.map writeValue) with
  | error panic => simp [texts, Except.map] at written
  | ok words =>
      simp only [texts, Except.map, Except.ok.injEq] at written
      rw [writeAll_map_eq_ok_iff] at texts
      exact ⟨words, texts, written.symm⟩

/-- The text of an object is made of the texts of its sorted members. -/
theorem writeValue_object_eq_ok {members : List Member} {word : List Char}
    (written : writeValue (.object members) = .ok word) :
    ∃ words,
      List.Forall₂ (fun member word => memberText member = .ok word)
          (sortByKey Prod.fst members) words ∧
        word = '{' :: separated ',' words ++ ['}'] := by
  rw [writeValue_object] at written
  cases texts :
      writeAll ((sortByKey Prod.fst members).map memberText) with
  | error panic => simp [texts, Except.map] at written
  | ok words =>
      simp only [texts, Except.map, Except.ok.injEq] at written
      rw [writeAll_map_eq_ok_iff] at texts
      exact ⟨words, texts, written.symm⟩

/-- The text of a member is its key followed by the text of its value. -/
theorem memberText_eq_ok {member : Member} {word : List Char}
    (written : memberText member = .ok word) :
    ∃ valueWord,
      writeValue member.2 = .ok valueWord ∧
        word = writeString member.1 ++ ':' :: valueWord := by
  cases value : writeValue member.2 with
  | error panic =>
      simp [memberText, value, Functor.map, Except.map] at written
  | ok valueWord =>
      simp only [memberText, value, Functor.map, Except.map,
        Except.ok.injEq] at written
      exact ⟨valueWord, rfl, written.symm⟩

/-- What the writer writes for a value. -/
def written : Code Char Value :=
  fun value word => writeValue value = .ok word

/-- Values whose texts start the same stream have the same shape. -/
theorem shapeOf_eq
    {first second : Value} {word word' rest rest' : List Char}
    (firstWritten : written first word)
    (secondWritten : written second word')
    (streams : word ++ rest = word' ++ rest') :
    shapeOf first = shapeOf second := by
  rcases writeValue_cons firstWritten with ⟨head, tail, rfl, shape⟩
  rcases writeValue_cons secondWritten with ⟨head', tail', rfl, shape'⟩
  simp only [List.cons_append, List.cons.injEq] at streams
  rw [← Option.some.injEq, ← shape, ← shape', streams.1]

/-- Members are delimited by their values. -/
theorem memberText_delimits {member : Member}
    (delimited : Delimits written Value.Same (Stops IsDigit) member.2) :
    Delimits (fun member word => memberText member = .ok word)
      Value.SameMember (Stops IsDigit) member := by
  intro word second word' rest rest' firstText secondText stops stops'
    streams
  rcases memberText_eq_ok firstText with ⟨valueWord, value, rfl⟩
  rcases memberText_eq_ok secondText with ⟨valueWord', value', rfl⟩
  simp only [List.append_assoc, List.cons_append] at streams
  have keys := writeString_append_inj streams
  have values :=
    delimited _ _ _ _ _ value value' stops stops'
      (List.cons.inj keys.2).2
  exact ⟨⟨keys.1, values.1⟩, values.2⟩

/--
The text of a value identifies the value up to the order of object members,
whatever comes after it, unless a number runs on into further digits.
-/
theorem writeValue_delimits (value : Value) :
    Delimits written Value.Same (Stops IsDigit) value := by
  induction value using Value.nesting_induction with
  | null =>
      intro word second word' rest rest' first other _ _ streams
      have shape := shapeOf_eq first other streams
      cases second <;> cases shape
      cases first
      cases other
      exact ⟨.null, by simpa using streams⟩
  | bool value =>
      intro word second word' rest rest' first other _ _ streams
      have shape := shapeOf_eq first other streams
      cases second <;> cases shape
      cases first.symm.trans other
      exact ⟨.bool value, List.append_cancel_left streams⟩
  | number number =>
      intro word second word' rest rest' first other stops stops' streams
      have shape := shapeOf_eq first other streams
      cases second <;> cases shape
      rename_i number'
      cases number with
      | float bits => cases first
      | integer value low high =>
          cases number' with
          | float bits => cases other
          | integer value' low' high' =>
              rw [written, writeValue_integer] at first other
              cases first
              cases other
              have same := decimal_append_inj stops stops' streams
              have equal := same.1
              subst equal
              exact ⟨.number _, same.2⟩
  | string text =>
      intro word second word' rest rest' first other _ _ streams
      have shape := shapeOf_eq first other streams
      cases second <;> cases shape
      cases first
      cases other
      have same := writeString_append_inj streams
      rw [same.1]
      exact ⟨.string _, same.2⟩
  | array items induction =>
      intro word second word' rest rest' first other _ _ streams
      have shape := shapeOf_eq first other streams
      cases second <;> cases shape
      rcases writeValue_array_eq_ok first with ⟨words, texts, rfl⟩
      rcases writeValue_array_eq_ok other with ⟨words', texts', rfl⟩
      simp only [List.cons_append, List.append_assoc, List.cons.injEq,
        true_and, List.nil_append] at streams
      have same :=
        separated_inj (by decide)
          (fun rest => Stops.cons (by simp [IsDigit]))
          (fun rest => Stops.cons (by simp [IsDigit]))
          (by
            intro item word text
            rcases writeValue_cons text with ⟨head, tail, rfl, shape⟩
            refine ⟨head, tail, rfl, ?_⟩
            rintro rfl
            cases shape)
          induction texts texts' streams
      exact ⟨.array same.1, same.2⟩
  | object members induction =>
      intro word second word' rest rest' first other _ _ streams
      have shape := shapeOf_eq first other streams
      cases second <;> cases shape
      rcases writeValue_object_eq_ok first with ⟨words, texts, rfl⟩
      rcases writeValue_object_eq_ok other with ⟨words', texts', rfl⟩
      simp only [List.cons_append, List.append_assoc, List.cons.injEq,
        true_and, List.nil_append] at streams
      have same :=
        separated_inj (by decide)
          (fun rest => Stops.cons (by simp [IsDigit]))
          (fun rest => Stops.cons (by simp [IsDigit]))
          (by
            intro member word text
            rcases memberText_eq_ok text with ⟨valueWord, _, rfl⟩
            exact ⟨'"', _, rfl, by decide⟩)
          (fun member present =>
            memberText_delimits
              (induction member (mem_sortByKey.mp present)))
          texts texts' streams
      exact
        ⟨Value.same_object_iff.mpr (reordered_of_sortByKey same.1), same.2⟩

/-- Two values with one canonical text are the same value. -/
theorem same_of_toCanonicalString {first second : Value} {text : String}
    (firstText : toCanonicalString first = .ok text)
    (secondText : toCanonicalString second = .ok text) :
    first.Same second := by
  cases firstWritten : writeValue first with
  | error panic =>
      simp [toCanonicalString, firstWritten, Functor.map, Except.map]
        at firstText
  | ok word =>
      cases secondWritten : writeValue second with
      | error panic =>
          simp [toCanonicalString, secondWritten, Functor.map, Except.map]
            at secondText
      | ok word' =>
          simp only [toCanonicalString, firstWritten, secondWritten,
            Functor.map, Except.map, Except.ok.injEq] at firstText secondText
          have words : word = word' :=
            String.ofList_injective (firstText.trans secondText.symm)
          have noRest : Stops IsDigit [] := by
            intro symbol tail absurdity
            cases absurdity
          exact
            (writeValue_delimits first word second word' [] []
              firstWritten secondWritten noRest noRest
              (by rw [words])).1

/-! ## Same values have one text -/

/-- The text does not depend on the order of object members. -/
theorem writeValue_eq_of_same {first second : Value}
    (formed : second.WellFormed) (same : first.Same second) :
    writeValue first = writeValue second := by
  induction first using Value.nesting_induction generalizing second with
  | null =>
      cases same
      rfl
  | bool value =>
      cases same
      rfl
  | number value =>
      cases same
      rfl
  | string value =>
      cases same
      rfl
  | array items induction =>
      cases same with
      | array pointwise =>
          rw [Value.wellFormed_array_iff] at formed
          rw [writeValue_array, writeValue_array,
            map_eq_of_forall₂ pointwise fun item member item' member' =>
              induction item member (formed item' member')]
  | object members induction =>
      cases second with
      | object members' =>
          rw [Value.wellFormed_object_iff] at formed
          rcases Value.same_object_iff.mp same with
            ⟨arranged, pointwise, perm⟩
          let pair : Member → String × Except Panic (List Char) :=
            fun member => (member.1, writeValue member.2)
          have sortedTexts :
              ∀ entries : List Member,
                (sortByKey Prod.fst entries).map memberText =
                  (sortByKey Prod.fst (entries.map pair)).map
                    fun entry => writeMember entry.1 <$> entry.2 := by
            intro entries
            rw [← map_sortByKey (fun _ => rfl) entries, List.map_map]
            rfl
          have pairs : members.map pair = arranged.map pair := by
            apply map_eq_of_forall₂ pointwise
            intro member present member' present' agree
            exact
              Prod.ext agree.1
                (induction member present
                  (formed.2 member' (perm.mem_iff.mp present')) agree.2)
          have sorted :
              sortByKey Prod.fst (arranged.map pair) =
                sortByKey Prod.fst (members'.map pair) := by
            apply sortByKey_eq_of_perm _ (perm.map pair)
            rw [List.map_map]
            exact (perm.map Prod.fst).nodup_iff.mpr formed.1
          rw [writeValue_object, writeValue_object, sortedTexts, sortedTexts,
            pairs, sorted]
      | _ => cases same

/-- Canonical texts are equal exactly when the values are the same. -/
theorem toCanonicalString_eq_iff {first second : Value}
    (formed : second.WellFormed)
    (free : first.FloatFree) :
    toCanonicalString first = toCanonicalString second ↔
      first.Same second := by
  constructor
  · intro equal
    rcases (writeValue_isOk_iff first).mpr free with ⟨word, text⟩
    have firstText : toCanonicalString first = .ok (String.ofList word) := by
      rw [toCanonicalString, text]
      rfl
    exact same_of_toCanonicalString firstText (equal.symm.trans firstText)
  · intro same
    rw [toCanonicalString, toCanonicalString,
      writeValue_eq_of_same formed same]

end Trackward.ChainCore.CanonicalJson
