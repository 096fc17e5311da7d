import Trackward.ChainCore.JsonTexts
import Trackward.ChainCore.SerdeJson
import Trackward.ModelProxy.ToSafe

/-!
# What serde_json reads of Python's JSON

The text that Python writes for a coerced value, read by the grammar of JSON
texts.  It stands for a value exactly when its strings spell texts, and then for
the value one expects.
-/

namespace Trackward.ModelProxy.PythonTexts

open Trackward.ChainCore.CanonicalJson
open Trackward.ChainCore.JsonGrammar
open Trackward.ChainCore.JsonNumerals
open Trackward.ChainCore.JsonParser
open Trackward.ChainCore.JsonSoundness
open Trackward.ChainCore.JsonTexts
open Trackward.ChainCore.JsonValue
open Trackward.Lib
open Trackward.Lib.SeparatedTexts
open Trackward.ModelProxy.PythonValue
open Trackward.ModelProxy.ToSafe

/-! ## Code points -/

theorem toNat_point {point : CodePoint} (notHigh : isHigh point.val = false)
    (notLow : isLow point.val = false) :
    (Char.ofNat point.val).toNat = point.val :=
  toNat_ofNat point.isLt notHigh notLow

theorem shortEscape_of_shortLetter {code : Nat} {letter : Char}
    (short : shortLetter code = some letter) :
    shortEscape letter = some (Char.ofNat code) ∧ letter ≠ 'u' := by
  unfold shortLetter at short
  split_ifs at short with isQuote isBackslash isN isR isT isF isB
  all_goals
    cases short
    subst code
    exact ⟨rfl, by decide⟩

/-- What a code point is written as when no letter stands for it. -/
theorem escapeAscii_of_no_letter {point : CodePoint}
    (long : shortLetter point.val = none) :
    escapeAscii point =
      if 0x20 ≤ point.val ∧ point.val ≤ 0x7e then [Char.ofNat point.val]
      else if point.val < 0x10000 then unitEscape point.val
      else
        unitEscape (0xD800 + (point.val - 0x10000) / 0x400) ++
          unitEscape (0xDC00 + (point.val - 0x10000) % 0x400) := by
  rw [escapeAscii, long]

theorem ne_quote_of_no_letter {code : Nat} (long : shortLetter code = none) :
    code ≠ 0x22 ∧ code ≠ 0x5c := by
  constructor
  · rintro rfl
    cases long
  · rintro rfl
    cases long

theorem isHigh_of {unit : Nat} (low : 0xD800 ≤ unit)
    (high : unit < 0xDC00) : isHigh unit = true := by
  rw [isHigh, decide_eq_true low, decide_eq_true high]
  rfl

theorem isLow_of {unit : Nat} (low : 0xDC00 ≤ unit)
    (high : unit < 0xE000) : isLow unit = true := by
  rw [isLow, decide_eq_true low, decide_eq_true high]
  rfl

theorem surrogate_sub (upper lower : Nat) :
    0xD800 + upper - 0xD800 = upper ∧ 0xDC00 + lower - 0xDC00 = lower := by
  omega

theorem pairValue_add (upper lower : Nat) :
    pairValue (0xD800 + upper) (0xDC00 + lower) =
      0x10000 + 0x400 * upper + lower := by
  unfold pairValue
  simp only [surrogate_sub upper lower]

/-- The two halves of a code point beyond the first plane. -/
theorem surrogates {code : Nat} (beyond : 0x10000 ≤ code)
    (bound : code < 0x110000) :
    isHigh (0xD800 + (code - 0x10000) / 0x400) = true ∧
      isLow (0xDC00 + (code - 0x10000) % 0x400) = true ∧
        code =
          pairValue (0xD800 + (code - 0x10000) / 0x400)
            (0xDC00 + (code - 0x10000) % 0x400) := by
  have upper : (code - 0x10000) / 0x400 < 0x400 := by omega
  have lower : (code - 0x10000) % 0x400 < 0x400 := by omega
  have high : isHigh (0xD800 + (code - 0x10000) / 0x400) = true :=
    isHigh_of (by omega) (by omega)
  have low : isLow (0xDC00 + (code - 0x10000) % 0x400) = true :=
    isLow_of (by omega) (by omega)
  refine ⟨high, low, ?_⟩
  rw [pairValue_add, Nat.add_assoc, Nat.div_add_mod]
  omega

/-- A code point that is no surrogate is written as a text of its character. -/
theorem charText_escapeAscii {point : CodePoint}
    (notHigh : isHigh point.val = false) (notLow : isLow point.val = false) :
    CharText (Char.ofNat point.val) (escapeAscii point) := by
  have value := toNat_point notHigh notLow
  have bound := point.isLt
  cases short : shortLetter point.val with
  | some letter =>
      rw [escapeAscii, short]
      exact .short (shortEscape_of_shortLetter short).1
  | none =>
      rw [escapeAscii_of_no_letter short]
      have other := ne_quote_of_no_letter short
      split
      case isTrue printable =>
          apply CharText.plain
          · rw [value]
            exact printable.1
          · intro same
            rw [same] at value
            exact other.1 value.symm
          · intro same
            rw [same] at value
            exact other.2 value.symm
      case isFalse =>
          split
          case isTrue small =>
              apply CharText.unit
              rw [value]
              exact codeUnit_hex4 small
          case isFalse beyond =>
              have halves := surrogates (Nat.le_of_not_lt beyond) bound
              apply CharText.pair (codeUnit_hex4 _) (codeUnit_hex4 _)
                halves.1 halves.2.1
              · rw [value]
                exact halves.2.2
              · omega
              · omega

/-- A surrogate is written as an escape. -/
theorem escapeAscii_surrogate {point : CodePoint}
    (surrogate : isHigh point.val = true ∨ isLow point.val = true) :
    escapeAscii point = unitEscape point.val ∧ point.val < 0x10000 := by
  have between : 0xD800 ≤ point.val ∧ point.val < 0xE000 := by
    simp only [isHigh, isLow, Bool.and_eq_true, decide_eq_true_eq]
      at surrogate
    omega
  have long : shortLetter point.val = none := by
    unfold shortLetter
    split_ifs <;> first | omega | rfl
  rw [escapeAscii_of_no_letter long, if_neg (by omega), if_pos (by omega)]
  exact ⟨rfl, by omega⟩

/-- A unit that is written is read back. -/
theorem readUnit_hex4 {unit : Nat} (bound : unit < 0x10000)
    (rest : List Char) :
    readUnit (hex4 unit ++ rest) = some (unit, rest) :=
  readUnit_append (codeUnit_hex4 bound) rest

theorem readChar_unitEscape (unit : Nat) (rest : List Char) :
    readChar (unitEscape unit ++ rest) =
      readUnicode (hex4 unit ++ rest) := by
  simp [unitEscape, readChar]

/-- A second half alone is no character. -/
theorem readChar_low {point : CodePoint} (low : isLow point.val = true)
    (rest : List Char) : readChar (escapeAscii point ++ rest) = none := by
  have escape := escapeAscii_surrogate (Or.inr low)
  have notHigh : isHigh point.val = false := by
    cases high : isHigh point.val with
    | false => rfl
    | true =>
        rw [not_low_of_high high] at low
        cases low
  rw [escape.1, readChar_unitEscape, readUnicode, readUnit_hex4 escape.2]
  simp [notHigh, low]

/-- A first half takes what follows for the second one. -/
theorem readChar_high {point : CodePoint} (high : isHigh point.val = true)
    (rest : List Char) :
    readChar (escapeAscii point ++ rest) = readLow point.val rest := by
  have escape := escapeAscii_surrogate (Or.inl high)
  rw [escape.1, readChar_unitEscape, readUnicode, readUnit_hex4 escape.2]
  simp [high]

theorem readLow_unitEscape {high unit : Nat} (bound : unit < 0x10000)
    (rest : List Char) :
    readLow high (unitEscape unit ++ rest) =
      if isLow unit then some (Char.ofNat (pairValue high unit), rest)
      else none := by
  simp only [unitEscape, List.cons_append, readLow, readUnit_hex4 bound]

/-- No other code point is taken for a second half. -/
theorem readLow_escapeAscii {high : Nat} {point : CodePoint}
    (notLow : isLow point.val = false) (rest : List Char) :
    readLow high (escapeAscii point ++ rest) = none := by
  have bound := point.isLt
  cases short : shortLetter point.val with
  | some letter =>
      have other := (shortEscape_of_shortLetter short).2
      rw [escapeAscii, short]
      simp only [List.cons_append, List.nil_append]
      unfold readLow
      split
      case h_1 same => exact absurd (List.cons.inj (List.cons.inj same).2).1 other
      case h_2 => rfl
  | none =>
      rw [escapeAscii_of_no_letter short]
      split
      case isTrue printable =>
          have backslash : Char.ofNat point.val ≠ '\\' := by
            intro same
            have notHigh : isHigh point.val = false := by
              simp only [isHigh, Bool.and_eq_false_iff,
                decide_eq_false_iff_not]
              omega
            have value := toNat_point notHigh notLow
            rw [same] at value
            exact (ne_quote_of_no_letter short).2 value.symm
          unfold readLow
          split
          case h_1 same => exact absurd (List.cons.inj same).1 backslash
          case h_2 => rfl
      case isFalse =>
          split
          case isTrue small =>
              rw [readLow_unitEscape small, notLow]
              rfl
          case isFalse beyond =>
              have halves := surrogates (Nat.le_of_not_lt beyond) bound
              rw [List.append_assoc, readLow_unitEscape (by omega),
                not_low_of_high halves.1]
              rfl

/-! ## Literals -/

/-- No code point is written with a quote in front. -/
theorem escapeAscii_opens (point : CodePoint) :
    ∃ head tail, escapeAscii point = head :: tail ∧ head ≠ '"' := by
  cases high : isHigh point.val with
  | true =>
      rw [(escapeAscii_surrogate (Or.inl high)).1]
      exact ⟨_, _, rfl, by decide⟩
  | false =>
      cases low : isLow point.val with
      | true =>
          rw [(escapeAscii_surrogate (Or.inr low)).1]
          exact ⟨_, _, rfl, by decide⟩
      | false => exact CharText.opens (charText_escapeAscii high low)

/-- One code point more before the quote. -/
theorem readSymbols_escapeAscii (fuel : Nat) (point : CodePoint)
    (rest : List Char) :
    readSymbols (fuel + 1) (escapeAscii point ++ rest) =
      (readChar (escapeAscii point ++ rest)).bind fun first =>
        (readSymbols fuel first.2).map fun others =>
          (first.1 :: others.1, others.2) := by
  rcases escapeAscii_opens point with ⟨head, tail, same, noQuote⟩
  rw [readSymbols, same, List.cons_append, List.head?_cons,
    if_neg (by simpa using noQuote)]
  cases readChar (head :: (tail ++ rest)) <;> rfl

/-- A quote is no second half of a pair. -/
theorem readLow_quote (high : Nat) (rest : List Char) :
    readLow high ('"' :: rest) = none :=
  rfl

/-- The code points of a literal are read as what they spell. -/
theorem readSymbols_dumpStr (text : PyStr) (rest : List Char) {fuel : Nat}
    (enough : text.length < fuel) :
    readSymbols fuel ((text.map escapeAscii).flatten ++ '"' :: rest) =
      (spelled text).map fun symbols => (symbols, rest) := by
  induction text using spelled.induct generalizing fuel with
  | case1 =>
      cases fuel with
      | zero => cases enough
      | succ fuel => rfl
  | case2 point surrogate =>
      cases fuel with
      | zero => cases enough
      | succ fuel =>
          rw [spelled, if_pos surrogate, List.map_singleton,
            List.flatten_cons, List.flatten_nil, List.append_nil,
            readSymbols_escapeAscii]
          rw [Bool.or_eq_true] at surrogate
          rcases surrogate with high | low
          · rw [readChar_high high, readLow_quote]
            rfl
          · rw [readChar_low low]
            rfl
  | case3 point plain =>
      cases fuel with
      | zero => cases enough
      | succ fuel =>
          have ordinary := plain
          rw [Bool.or_eq_true, not_or] at ordinary
          rw [spelled, if_neg plain, List.map_singleton, List.flatten_cons,
            List.flatten_nil, List.append_nil, readSymbols_escapeAscii,
            readChar_of_charText
              (charText_escapeAscii (by simpa using ordinary.1)
                (by simpa using ordinary.2))]
          cases fuel with
          | zero => exact absurd enough (Nat.lt_irrefl _)
          | succ fuel => rfl
  | case4 point next others high low induction =>
      cases fuel with
      | zero => cases enough
      | succ fuel =>
          have shorter : others.length < fuel := by
            simp only [List.length_cons] at enough
            omega
          have second := escapeAscii_surrogate (Or.inr low)
          rw [spelled, if_pos high, if_pos low, List.map_cons, List.map_cons,
            List.flatten_cons, List.flatten_cons, List.append_assoc,
            List.append_assoc, readSymbols_escapeAscii, readChar_high high,
            second.1, readLow_unitEscape second.2, if_pos low,
            Option.bind_some, induction shorter]
          generalize Char.ofNat (pairValue point.val next.val) = symbol
          cases spelled others <;> rfl
  | case5 point next others high notLow =>
      cases fuel with
      | zero => cases enough
      | succ fuel =>
          rw [spelled, if_pos high, if_neg notLow, List.map_cons,
            List.map_cons, List.flatten_cons, List.flatten_cons,
            List.append_assoc, List.append_assoc, readSymbols_escapeAscii,
            readChar_high high, readLow_escapeAscii (by simpa using notLow)]
          rfl
  | case6 point next others notHigh low =>
      cases fuel with
      | zero => cases enough
      | succ fuel =>
          rw [spelled, if_neg notHigh, if_pos low, List.map_cons,
            List.flatten_cons, List.append_assoc, readSymbols_escapeAscii,
            readChar_low low]
          rfl
  | case7 point next others notHigh notLow induction =>
      cases fuel with
      | zero => cases enough
      | succ fuel =>
          have shorter : (next :: others).length < fuel := by
            simp only [List.length_cons] at enough ⊢
            omega
          rw [spelled, if_neg notHigh, if_neg notLow, List.map_cons,
            List.flatten_cons, List.append_assoc, readSymbols_escapeAscii,
            readChar_of_charText
              (charText_escapeAscii (by simpa using notHigh)
                (by simpa using notLow)),
            Option.bind_some, induction shorter]
          cases spelled (next :: others) <;> rfl

/-- A literal is read as what it spells. -/
theorem readString_dumpStr (text : PyStr) (rest : List Char) :
    readString (dumpStr text ++ rest) =
      (spelled text).map fun symbols => (String.ofList symbols, rest) := by
  have stream :
      dumpStr text ++ rest =
        '"' :: ((text.map escapeAscii).flatten ++ '"' :: rest) := by
    simp [dumpStr]
  have shorter :
      text.length < ((dumpStr text) ++ rest).length := by
    have grows :
        text.length ≤ (text.map escapeAscii).flatten.length := by
      induction text with
      | nil => exact Nat.zero_le _
      | cons point text induction =>
          rcases escapeAscii_opens point with ⟨head, tail, same, _⟩
          have others := induction (by simp [dumpStr])
          simp only [List.map_cons, List.flatten_cons, same,
            List.length_append, List.length_cons]
          omega
    simp only [dumpStr, List.length_append, List.length_cons]
    omega
  rw [stream] at shorter ⊢
  rw [readString, List.head?_cons, if_pos rfl, List.tail_cons,
    readSymbols_dumpStr text rest shorter]
  cases spelled text <;> rfl

/-! ## Values -/

section Parsed

variable (number : List Char → Option Number)

mutual

/-- The value that the text of a Python value stands for. -/
def parsed : PyValue → Option Value
  | .none => some .null
  | .bool value => some (.bool value)
  | .int value => (number (decimal value)).map .number
  | .float _ => none
  | .str text => (spelled text).map fun symbols => .string (.ofList symbols)
  | .list items => (parsedItems items).map .array
  | .dict entries => (parsedEntries entries).map .object

/-- The values of the items of a list. -/
def parsedItems : List PyValue → Option (List Value)
  | [] => some []
  | item :: items =>
      (parsed item).bind fun first =>
        (parsedItems items).map fun others => first :: others

/-- The members that the entries of a dictionary stand for. -/
def parsedEntries : List (PyStr × PyValue) → Option (List Member)
  | [] => some []
  | (key, value) :: entries =>
      (spelled key).bind fun symbols =>
        (parsed value).bind fun inner =>
          (parsedEntries entries).map fun others =>
            (.ofList symbols, inner) :: others

end

/-- The member that an entry stands for. -/
def parsedEntry (entry : Entry) : Option Member :=
  (spelled entry.1).bind fun symbols =>
    (parsed number entry.2).map fun inner => (.ofList symbols, inner)

theorem parsedItems_eq (items : List PyValue) :
    parsedItems number items = items.mapM (parsed number) := by
  induction items with
  | nil => rfl
  | cons item items induction =>
      rw [parsedItems, induction, List.mapM_cons]
      cases parsed number item with
      | none => rfl
      | some first => cases items.mapM (parsed number) <;> rfl

theorem parsedEntries_eq (entries : List Entry) :
    parsedEntries number entries = entries.mapM (parsedEntry number) := by
  induction entries with
  | nil => rfl
  | cons entry entries induction =>
      rcases entry with ⟨key, value⟩
      rw [parsedEntries, induction, List.mapM_cons, parsedEntry]
      cases spelled key with
      | none => rfl
      | some symbols =>
          cases parsed number value with
          | none => rfl
          | some inner => cases entries.mapM (parsedEntry number) <;> rfl

end Parsed

section Read

variable (printing : Printing) (number : List Char → Option Number)

/-- The text of a coerced value starts with a symbol that announces one. -/
theorem dumps_opens (value : PyValue) :
    ∃ head tail, dumps printing (toSafe printing value) = head :: tail ∧
      ∃ shape, announces head = some shape := by
  cases value with
  | none => exact ⟨_, _, rfl, _, rfl⟩
  | bool value => cases value <;> exact ⟨_, _, rfl, _, rfl⟩
  | int value =>
      rcases decimal_cons value with ⟨head, tail, same, announced⟩
      exact ⟨head, tail, same, _, announced⟩
  | float value =>
      rcases toSafe_float printing value with ⟨whole, _, same⟩ | ⟨_, same⟩
      · rcases decimal_cons whole with ⟨head, tail, word, announced⟩
        rw [same]
        exact ⟨head, tail, word, _, announced⟩
      · rw [same]
        exact ⟨_, _, rfl, _, rfl⟩
  | str text => exact ⟨_, _, rfl, _, rfl⟩
  | list items =>
      rw [toSafe_list]
      exact ⟨_, _, rfl, _, rfl⟩
  | dict entries =>
      rw [toSafe_dict]
      exact ⟨_, _, rfl, _, rfl⟩

theorem dumps_solid (value : PyValue) :
    ∃ head tail, dumps printing (toSafe printing value) = head :: tail ∧
      isBlank head = false ∧ head ≠ ']' := by
  rcases dumps_opens printing value with ⟨head, tail, same, shape, announced⟩
  refine ⟨head, tail, same, not_blank_of_announces announced, ?_⟩
  rintro rfl
  cases announced

/-- An integer is read as the number its numeral stands for. -/
theorem readValue_int {value : Int} {fuel : Nat} {rest : List Char}
    (enough : (dumps printing (.int value)).length ≤ fuel)
    (ends : Ends rest) :
    readValue number fuel (dumps printing (.int value) ++ rest) =
      (parsed number (.int value)).map fun found => (found, rest) := by
  rw [dumps] at enough ⊢
  rw [readValue_number (numberText_decimal value) ends enough, parsed,
    Option.map_map]
  rfl

/-- A string is read as what it spells. -/
theorem readValue_str {text : PyStr} {fuel : Nat} {rest : List Char}
    (enough : (dumps printing (.str text)).length ≤ fuel) :
    readValue number fuel (dumps printing (.str text) ++ rest) =
      (parsed number (.str text)).map fun found => (found, rest) := by
  cases fuel with
  | zero => cases enough
  | succ fuel =>
      have read := readString_dumpStr text rest
      rw [dumps, dumpStr, List.cons_append, readValue_string]
      rw [dumpStr, List.cons_append] at read
      rw [read, parsed]
      cases spelled text <;> rfl

/-- A member is read as its key and its value are. -/
theorem readMember_dumpsEntry
    {read : List Char → Option (Value × List Char)} {entry : Entry}
    {rest : List Char}
    (readable :
      read (dumps printing (toSafe printing entry.2) ++ rest) =
        (parsed number (toSafe printing entry.2)).map
          fun found => (found, rest)) :
    readMember read
        (dumpsEntry printing (toSafeEntry printing entry) ++ rest) =
      (parsedEntry number (toSafeEntry printing entry)).map
        fun found => (found, rest) := by
  rcases dumps_solid printing entry.2 with ⟨head, tail, same, solid, _⟩
  have colon : isBlank ':' = false := by decide
  have space : isBlank ' ' = true := by decide
  simp only [dumpsEntry, toSafeEntry, parsedEntry, List.append_assoc,
    List.cons_append, readMember, readString_dumpStr]
  cases spelled entry.1 with
  | none => rfl
  | some symbols =>
      rw [same] at readable ⊢
      simp only [Option.map_some, Option.bind_some, List.dropWhile_cons,
        colon, space, solid, Bool.false_eq_true, if_false, if_true,
        List.cons_append] at readable ⊢
      rw [readable]
      cases parsed number (toSafe printing entry.2) <;> rfl

theorem dumps_list (items : List PyValue) :
    dumps printing (toSafe printing (.list items)) =
      '[' :: (joined ',' ' ' (items.map fun item =>
        dumps printing (toSafe printing item)) ++ [']']) := by
  rw [toSafe_list, dumps, dumpsItems_eq_map, List.map_map]
  rfl

theorem dumps_dict (entries : List Entry) :
    dumps printing (toSafe printing (.dict entries)) =
      '{' :: (joined ',' ' ' (entries.map fun entry =>
        dumpsEntry printing (toSafeEntry printing entry)) ++ ['}']) := by
  rw [toSafe_dict, dumps, dumpsEntries_eq_map, List.map_map]
  rfl

theorem parsed_list (items : List PyValue) :
    parsed number (toSafe printing (.list items)) =
      (items.mapM fun item => parsed number (toSafe printing item)).map
        .array := by
  rw [toSafe_list, parsed, parsedItems_eq, List.mapM_map]
  rfl

theorem parsed_dict (entries : List Entry) :
    parsed number (toSafe printing (.dict entries)) =
      (entries.mapM fun entry =>
        parsedEntry number (toSafeEntry printing entry)).map .object := by
  rw [toSafe_dict, parsed, parsedEntries_eq, List.mapM_map]
  rfl

/-- The text of a coerced value is read as the value it stands for. -/
theorem readValue_dumps (value : PyValue) {fuel : Nat} {rest : List Char}
    (enough : (dumps printing (toSafe printing value)).length ≤ fuel)
    (ends : Ends rest) :
    readValue number fuel (dumps printing (toSafe printing value) ++ rest) =
      (parsed number (toSafe printing value)).map
        fun found => (found, rest) := by
  induction value using PyValue.nesting_induction
    generalizing fuel rest with
  | none =>
      cases fuel with
      | zero => cases enough
      | succ fuel => exact readWord_append ['n', 'u', 'l', 'l'] .null rest
  | bool value =>
      cases fuel with
      | zero => cases value <;> cases enough
      | succ fuel =>
          cases value with
          | true => exact readWord_append ['t', 'r', 'u', 'e'] (.bool true) rest
          | false =>
              exact
                readWord_append ['f', 'a', 'l', 's', 'e'] (.bool false) rest
  | int value => exact readValue_int printing number enough ends
  | float value =>
      rcases toSafe_float printing value with ⟨whole, _, same⟩ | ⟨_, same⟩
      · rw [same] at enough ⊢
        exact readValue_int printing number enough ends
      · rw [same] at enough ⊢
        exact readValue_str printing number enough
  | str text => exact readValue_str printing number enough
  | list items induction =>
      rw [dumps_list] at enough ⊢
      cases fuel with
      | zero => cases enough
      | succ fuel =>
          simp only [List.length_cons, List.length_append] at enough
          have reads :
              ∀ item ∈ items, ∀ rest, Ends rest →
                readValue number fuel
                    (dumps printing (toSafe printing item) ++ rest) =
                  (parsed number (toSafe printing item)).map
                    fun found => (found, rest) := by
            intro item listed rest ends
            have shorter :
                (dumps printing (toSafe printing item)).length ≤
                  (joined ',' ' ' (items.map fun item =>
                    dumps printing (toSafe printing item))).length :=
              length_word_le_joined
                (fun item => dumps printing (toSafe printing item)) listed
            exact induction item listed (by omega) ends
          have sequence :
              readSequence isBlank ',' ']'
                  (fun inner => readValue number fuel inner)
                  (joined ',' ' ' (items.map fun item =>
                    dumps printing (toSafe printing item)) ++ ']' :: rest) =
                (items.mapM fun item =>
                    parsed number (toSafe printing item)).map
                  fun parts => (parts, rest) :=
            readSequence_joined (delimiters (Or.inl rfl))
              (surrounds_ends (Or.inl rfl)) rfl
              (fun item _ => dumps_solid printing item) reads rest
          rw [List.cons_append, List.append_assoc, List.singleton_append,
            readValue_array, sequence, parsed_list, Option.map_map,
            Option.map_map]
          rfl
  | dict entries induction =>
      rw [dumps_dict] at enough ⊢
      cases fuel with
      | zero => cases enough
      | succ fuel =>
          simp only [List.length_cons, List.length_append] at enough
          have reads :
              ∀ entry ∈ entries, ∀ rest, Ends rest →
                readMember (fun inner => readValue number fuel inner)
                    (dumpsEntry printing (toSafeEntry printing entry) ++
                      rest) =
                  (parsedEntry number (toSafeEntry printing entry)).map
                    fun found => (found, rest) := by
            intro entry listed rest ends
            have shorter :
                (dumpsEntry printing (toSafeEntry printing entry)).length ≤
                  (joined ',' ' ' (entries.map fun entry =>
                    dumpsEntry printing (toSafeEntry printing entry))).length :=
              length_word_le_joined
                (fun entry => dumpsEntry printing (toSafeEntry printing entry))
                listed
            have inner :
                (dumps printing (toSafe printing entry.2)).length ≤
                  (dumpsEntry printing (toSafeEntry printing entry)).length := by
              simp only [dumpsEntry, toSafeEntry, List.length_append,
                List.length_cons]
              omega
            exact
              readMember_dumpsEntry printing number
                (induction entry listed (by omega) ends)
          have sequence :
              readSequence isBlank ',' '}'
                  (readMember fun inner => readValue number fuel inner)
                  (joined ',' ' ' (entries.map fun entry =>
                      dumpsEntry printing (toSafeEntry printing entry)) ++
                    '}' :: rest) =
                (entries.mapM fun entry =>
                    parsedEntry number (toSafeEntry printing entry)).map
                  fun parts => (parts, rest) :=
            readSequence_joined (delimiters (Or.inr rfl))
              (surrounds_ends (Or.inr rfl)) rfl
              (fun entry _ => ⟨'"', _, rfl, by decide, by decide⟩) reads rest
          rw [List.cons_append, List.append_assoc, List.singleton_append,
            readValue_object, sequence, parsed_dict, Option.map_map,
            Option.map_map]
          rfl

/-- A coerced value is a JSON text of just the value it stands for. -/
theorem readText_dumps (value : PyValue) :
    readText number (dumps printing (toSafe printing value)) =
      parsed number (toSafe printing value) := by
  have noMore : Ends [] := by
    intro symbol tail absurdity
    cases absurdity
  have read :=
    readValue_dumps printing number value (Nat.le_refl _) noMore
  rcases dumps_solid printing value with ⟨head, tail, same, solid, _⟩
  rw [List.append_nil] at read
  rw [same] at read ⊢
  rw [readText, List.dropWhile_cons_of_neg (by simp [solid]), read]
  cases parsed number (toSafe printing value) <;> rfl

end Read

end Trackward.ModelProxy.PythonTexts
