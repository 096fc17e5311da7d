import Trackward.ChainCore.JsonNumerals
import Mathlib.Data.List.TakeWhile

/-!
# A parser for JSON texts

A reader for the whole grammar, by the nesting of values, and its completeness:
it reads every JSON text as the value the text stands for.
-/

namespace Trackward.ChainCore.JsonParser

open Trackward.ChainCore.CanonicalJson
open Trackward.ChainCore.JsonGrammar
open Trackward.ChainCore.JsonNumerals
open Trackward.ChainCore.JsonValue
open Trackward.Lib
open Trackward.Lib.PrefixCodes
open Trackward.Lib.SeparatedTexts

/-! ## The reader -/

/-- A number: the numeral that the symbols of numerals make. -/
def readNumber (number : List Char → Option Number) (stream : List Char) :
    Option (Value × List Char) :=
  if isNumeral (stream.takeWhile isNumberSymbol) then
    (number (stream.takeWhile isNumberSymbol)).map fun value =>
      (.number value, stream.dropWhile isNumberSymbol)
  else none

/-- The code unit at the front of a stream. -/
def readUnit : List Char → Option (Nat × List Char)
  | first :: second :: third :: fourth :: rest =>
      (codeUnit [first, second, third, fourth]).map fun unit => (unit, rest)
  | _ => none

/-- The second half of a surrogate pair, and the character of both. -/
def readLow (high : Nat) : List Char → Option (Char × List Char)
  | '\\' :: 'u' :: rest =>
      match readUnit rest with
      | some (low, rest) =>
          if isLow low then some (Char.ofNat (pairValue high low), rest)
          else none
      | none => none
  | _ => none

/-- The character after a backslash and a `u`. -/
def readUnicode (stream : List Char) : Option (Char × List Char) :=
  match readUnit stream with
  | some (unit, rest) =>
      if isHigh unit then readLow unit rest
      else if isLow unit then none
      else some (Char.ofNat unit, rest)
  | none => none

/-- One character of a literal. -/
def readChar : List Char → Option (Char × List Char)
  | [] => none
  | symbol :: rest =>
      if symbol = '\\' then
        match rest with
        | [] => none
        | letter :: rest =>
            if letter = 'u' then readUnicode rest
            else (shortEscape letter).map fun symbol => (symbol, rest)
      else if 0x20 ≤ symbol.toNat then some (symbol, rest)
      else none

/-- The characters of a literal up to the quote that closes it. -/
def readSymbols : Nat → List Char → Option (List Char × List Char)
  | 0, _ => none
  | fuel + 1, stream =>
      if stream.head? = some '"' then some ([], stream.tail)
      else
        match readChar stream with
        | none => none
        | some (symbol, rest) =>
            (readSymbols fuel rest).map fun others =>
              (symbol :: others.1, others.2)

/-- A string literal. -/
def readString (stream : List Char) : Option (String × List Char) :=
  if stream.head? = some '"' then
    (readSymbols stream.length stream.tail).map fun read =>
      (String.ofList read.1, read.2)
  else none

/-- A member of an object, relative to a reader of values. -/
def readMember
    (read : List Char → Option (Value × List Char)) (stream : List Char) :
    Option (Member × List Char) :=
  match readString stream with
  | none => none
  | some (key, rest) =>
      match rest.dropWhile isBlank with
      | [] => none
      | symbol :: rest =>
          if symbol = ':' then
            (read (rest.dropWhile isBlank)).map fun inner =>
              ((key, inner.1), inner.2)
          else none

/-- A word that stands for one value. -/
def readWord (word : List Char) (value : Value) (stream : List Char) :
    Option (Value × List Char) :=
  if stream.take word.length = word then
    some (value, stream.drop word.length)
  else none

/-- A value; the fuel bounds its nesting. -/
def readValue (number : List Char → Option Number) :
    Nat → List Char → Option (Value × List Char)
  | 0, _ => none
  | fuel + 1, stream =>
      match stream.head?.bind announces with
      | none => none
      | some .null => readWord ['n', 'u', 'l', 'l'] .null stream
      | some (.bool true) =>
          readWord ['t', 'r', 'u', 'e'] (.bool true) stream
      | some (.bool false) =>
          readWord ['f', 'a', 'l', 's', 'e'] (.bool false) stream
      | some .number => readNumber number stream
      | some .string =>
          (readString stream).map fun read => (.string read.1, read.2)
      | some .array =>
          (readSequence isBlank ',' ']'
              (fun inner => readValue number fuel inner) stream.tail).map
            fun read => (.array read.1, read.2)
      | some .object =>
          (readSequence isBlank ',' '}'
              (readMember fun inner => readValue number fuel inner)
              stream.tail).map
            fun read => (.object read.1, read.2)

/-- The value of a text. -/
def readText (number : List Char → Option Number) (text : List Char) :
    Option Value :=
  match readValue number text.length (text.dropWhile isBlank) with
  | some (value, rest) =>
      if rest.dropWhile isBlank = [] then some value else none
  | none => none

example :
    readText (numberOf fun _ => none)
        " [ -7 , \x7b\"k\" : \"\\ud83d\\ude00\\/\"\x7d, [ ] ]\n".toList =
      some
        (.array
          [.number (.integer (-7) (by decide) (by decide)),
            .object [("k", .string "😀/")], .array []]) := by
  rfl

/-! ## Literals are read back -/

/-- A code unit is written with four digits. -/
theorem readUnit_append {digits : List Char} {unit : Nat}
    (stands : codeUnit digits = some unit) (rest : List Char) :
    readUnit (digits ++ rest) = some (unit, rest) := by
  rcases digits with _ | ⟨first, _ | ⟨second, _ | ⟨third, _ | ⟨fourth, others⟩⟩⟩⟩
  all_goals try cases stands
  cases others with
  | nil =>
      show (codeUnit [first, second, third, fourth]).map _ = _
      rw [stands]
      rfl
  | cons fifth others => cases stands

/-- A character is no half of a surrogate pair. -/
theorem not_surrogate (symbol : Char) :
    isHigh symbol.toNat = false ∧ isLow symbol.toNat = false := by
  have valid : symbol.toNat < 0xD800 ∨ 0xDFFF < symbol.toNat := by
    rcases symbol.valid with low | high
    · exact Or.inl low
    · exact Or.inr high.1
  simp only [isHigh, isLow, Bool.and_eq_false_iff, decide_eq_false_iff_not]
  omega

/-- The first unit of a pair is no second one. -/
theorem not_low_of_high {unit : Nat} (high : isHigh unit = true) :
    isLow unit = false := by
  simp only [isHigh, isLow, Bool.and_eq_true, decide_eq_true_eq,
    Bool.and_eq_false_iff, decide_eq_false_iff_not] at high ⊢
  omega

/-- A character is read back from each of its texts. -/
theorem readChar_of_charText {symbol : Char} {word : List Char}
    (text : CharText symbol word) (rest : List Char) :
    readChar (word ++ rest) = some (symbol, rest) := by
  cases text with
  | plain printable noQuote noBackslash =>
      simp only [List.singleton_append, readChar, noBackslash, if_false,
        printable, if_true]
  | @short letter _ stands =>
      have other : letter ≠ 'u' := by
        rintro rfl
        cases stands
      simp only [List.cons_append, List.nil_append, readChar, if_true, other,
        if_false, stands, Option.map_some]
  | @unit _ digits stands =>
      have outside := not_surrogate symbol
      simp only [List.cons_append, readChar, if_true, readUnicode,
        readUnit_append stands, outside.1, outside.2, Bool.false_eq_true,
        if_false, Char.ofNat_toNat]
  | @pair _ digits digits' high low first second opens closes stands =>
      simp only [List.cons_append, List.append_assoc, readChar, if_true,
        readUnicode, readUnit_append first, opens, readLow,
        readUnit_append second, closes, ← stands, Char.ofNat_toNat]

/-- No character is written with a quote in front. -/
theorem CharText.opens {symbol : Char} {word : List Char}
    (text : CharText symbol word) :
    ∃ head tail, word = head :: tail ∧ head ≠ '"' := by
  cases text with
  | plain printable noQuote noBackslash => exact ⟨_, _, rfl, noQuote⟩
  | short stands => exact ⟨_, _, rfl, by decide⟩
  | unit stands => exact ⟨_, _, rfl, by decide⟩
  | pair first second opens closes stands => exact ⟨_, _, rfl, by decide⟩

theorem readSymbols_of_charTexts {symbols : List Char}
    {words : List (List Char)}
    (texts : List.Forall₂ CharText symbols words) (rest : List Char)
    {fuel : Nat} (enough : words.flatten.length < fuel) :
    readSymbols fuel (words.flatten ++ '"' :: rest) =
      some (symbols, rest) := by
  induction texts generalizing fuel with
  | nil =>
      cases fuel with
      | zero => cases enough
      | succ fuel => rfl
  | @cons symbol word symbols words text later induction =>
      cases fuel with
      | zero => cases enough
      | succ fuel =>
          rcases CharText.opens text with ⟨head, tail, rfl, noQuote⟩
          have read :=
            readChar_of_charText text (words.flatten ++ '"' :: rest)
          have others := @induction fuel (by
            simp only [List.flatten_cons, List.cons_append, List.length_cons,
              List.length_append] at enough
            omega)
          rw [List.flatten_cons, List.append_assoc, readSymbols, read]
          simp only [List.cons_append, List.head?_cons, Option.some.injEq,
            noQuote, if_false, others, Option.map_some]

/-- A literal is read back. -/
theorem readString_of_stringText {text : String} {word : List Char}
    (literal : StringText text word) (rest : List Char) :
    readString (word ++ rest) = some (text, rest) := by
  rcases literal with ⟨words, texts, rfl⟩
  have stream :
      '"' :: (words.flatten ++ ['"']) ++ rest =
        '"' :: (words.flatten ++ '"' :: rest) := by
    simp
  rw [stream, readString, List.head?_cons, if_pos rfl, List.tail_cons,
    readSymbols_of_charTexts texts]
  · simp
  · simp only [List.length_cons, List.length_append]
    omega

/-! ## First symbols -/

/-- No text of a value starts with a symbol that may follow a part. -/
theorem announces_eq_none {symbol : Char}
    (around : isBlank symbol = true ∨ symbol = ',' ∨ symbol = ']' ∨
      symbol = '}') :
    announces symbol = none ∧ isNumberSymbol symbol = false := by
  simp only [isBlank, Bool.or_eq_true, decide_eq_true_eq] at around
  rcases around with (((rfl | rfl) | rfl) | rfl) | rfl | rfl | rfl
  all_goals decide

/-- A numeral starts with a sign or a digit. -/
theorem NumberText.opens {word : List Char} (numeral : NumberText word) :
    ∃ head tail, word = head :: tail ∧ announces head = some .number := by
  rcases numeral with ⟨sign, signs, whole, fraction, exponent, rfl,
    ⟨⟨some, digits⟩, _⟩, _⟩
  cases whole with
  | nil => exact absurd rfl some
  | cons head tail =>
      have announced := announces_digit (digits head List.mem_cons_self)
      rcases List.mem_cons.mp signs with rfl | signs
      · exact ⟨head, _, rfl, announced⟩
      · rw [List.mem_singleton.mp signs]
        exact ⟨'-', _, rfl, by decide⟩

/-- The first symbol of a text announces the shape of the value. -/
theorem ValueText.opens
    {blank : List Char → Prop} {number : List Char → Option Number}
    {value : Value} {word : List Char}
    (written : ValueText blank number value word) :
    ∃ head tail, word = head :: tail ∧
      announces head = some (shapeOf value) := by
  cases written with
  | number numeral _ => exact NumberText.opens numeral
  | string literal =>
      rcases literal with ⟨words, _, rfl⟩
      exact ⟨_, _, rfl, rfl⟩
  | _ => exact ⟨_, _, rfl, rfl⟩

/-! ## Numerals are read back -/

/-- What may follow a value: no further symbol of a numeral. -/
abbrev Ends : List Char → Prop :=
  Stops fun symbol => isNumberSymbol symbol = true

/-- A numeral is read as the number it stands for. -/
theorem readNumber_append
    {number : List Char → Option Number} {word rest : List Char}
    (numeral : NumberText word) (ends : Ends rest) :
    readNumber number (word ++ rest) =
      (number word).map fun value => (.number value, rest) := by
  have run := takeWhile_run (NumberText.symbols numeral) ends
  rw [readNumber, run.1, run.2, if_pos ((isNumeral_iff word).mpr numeral)]

/-- A numeral is read by the reader of numbers. -/
theorem readValue_number
    {number : List Char → Option Number} {word rest : List Char} {fuel : Nat}
    (numeral : NumberText word) (ends : Ends rest)
    (enough : word.length ≤ fuel) :
    readValue number fuel (word ++ rest) =
      (number word).map fun value => (.number value, rest) := by
  have read :
      readNumber number (word ++ rest) =
        (number word).map fun value => (.number value, rest) :=
    readNumber_append numeral ends
  rcases NumberText.opens numeral with ⟨head, tail, rfl, announced⟩
  cases fuel with
  | zero => cases enough
  | succ fuel =>
      rw [readValue, List.cons_append, List.head?_cons, Option.bind_some,
        announced, ← List.cons_append]
      exact read

/-- A literal is read by the reader of literals. -/
theorem readValue_string
    (number : List Char → Option Number) (fuel : Nat) (stream : List Char) :
    readValue number (fuel + 1) ('"' :: stream) =
      (readString ('"' :: stream)).map
        fun read => (.string read.1, read.2) :=
  rfl

/-! ## Values are read back -/

theorem surrounds_ends {closing : Char} (closes : closing = ']' ∨ closing = '}') :
    Surrounds isBlank ',' closing Ends := by
  intro symbol rest around
  apply Stops.cons
  have outside : isNumberSymbol symbol = false := by
    apply (announces_eq_none _).2
    rcases around with blank | rfl | rfl
    · exact Or.inl blank
    · exact Or.inr (Or.inl rfl)
    · exact Or.inr (Or.inr closes)
  simp [outside]

theorem delimiters {closing : Char} (closes : closing = ']' ∨ closing = '}') :
    Delimiters isBlank ',' closing := by
  rcases closes with rfl | rfl
  · exact ⟨by decide, by decide, by decide⟩
  · exact ⟨by decide, by decide, by decide⟩

theorem not_blank_of_announces {symbol : Char} {shape : Shape}
    (announced : announces symbol = some shape) : isBlank symbol = false := by
  cases blank : isBlank symbol with
  | false => rfl
  | true =>
      rw [(announces_eq_none (Or.inl blank)).1] at announced
      cases announced

/-- A word is read back. -/
theorem readWord_append (word : List Char) (value : Value)
    (rest : List Char) :
    readWord word value (word ++ rest) = some (value, rest) := by
  simp [readWord]

/-- A member is read back, if its value is. -/
theorem readMember_of_memberText
    {read : List Char → Option (Value × List Char)}
    {code : Code Char Value} {member : Member} {word rest : List Char}
    {size : Nat}
    (starts :
      ∀ value word, code value word →
        ∃ head tail, word = head :: tail ∧ isBlank head = false)
    (readable :
      ∀ word, code member.2 word → word.length ≤ size →
        read (word ++ rest) = some (member.2, rest))
    (written : MemberText Blanks code member word)
    (fits : word.length ≤ size) :
    readMember read (word ++ rest) = some (member, rest) := by
  cases written with
  | @mk key inner keyWord before after word literal opens closes here =>
      simp only [List.length_append, List.length_cons] at fits
      have found := readable word here (by omega)
      rcases starts inner word here with ⟨head, tail, rfl, solid⟩
      have stream :
          keyWord ++ (before ++ ':' :: (after ++ head :: tail)) ++ rest =
            keyWord ++ (before ++ ':' :: (after ++ head :: (tail ++ rest))) := by
        simp
      have colon : isBlank ':' = false := by decide
      rw [stream, readMember, readString_of_stringText literal]
      simp only [dropWhile_blanks opens colon, if_true,
        dropWhile_blanks closes solid]
      rw [← List.cons_append, found]
      rfl

theorem readValue_array (number : List Char → Option Number) (fuel : Nat)
    (stream : List Char) :
    readValue number (fuel + 1) ('[' :: stream) =
      (readSequence isBlank ',' ']'
          (fun inner => readValue number fuel inner) stream).map
        fun read => (.array read.1, read.2) :=
  rfl

theorem readValue_object (number : List Char → Option Number) (fuel : Nat)
    (stream : List Char) :
    readValue number (fuel + 1) ('{' :: stream) =
      (readSequence isBlank ',' '}'
          (readMember fun inner => readValue number fuel inner) stream).map
        fun read => (.object read.1, read.2) :=
  rfl

/-- No text of a value starts with a blank. -/
theorem starts_of_valueText {number : List Char → Option Number} (value : Value)
    (word : List Char) (written : ValueText Blanks number value word) :
    ∃ head tail, word = head :: tail ∧ isBlank head = false := by
  rcases ValueText.opens written with ⟨head, tail, same, announced⟩
  exact ⟨head, tail, same, not_blank_of_announces announced⟩

/-- The reader reads every text of a value back. -/
theorem readValue_of_valueText
    {number : List Char → Option Number} {value : Value} {word rest : List Char}
    {fuel : Nat}
    (written : ValueText Blanks number value word)
    (enough : word.length ≤ fuel) (ends : Ends rest) :
    readValue number fuel (word ++ rest) = some (value, rest) := by
  induction value using Value.nesting_induction
    generalizing word rest fuel with
  | null =>
      cases written
      cases fuel with
      | zero => cases enough
      | succ fuel => exact readWord_append ['n', 'u', 'l', 'l'] .null rest
  | bool value =>
      cases fuel with
      | zero => cases written <;> cases enough
      | succ fuel =>
          cases written with
          | true => exact readWord_append ['t', 'r', 'u', 'e'] (.bool true) rest
          | false =>
              exact
                readWord_append ['f', 'a', 'l', 's', 'e'] (.bool false) rest
  | number value =>
      cases written with
      | number numeral stands =>
          rw [readValue_number numeral ends enough, stands]
          rfl
  | string text =>
      cases written with
      | string literal =>
          have read := readString_of_stringText literal rest
          rcases literal with ⟨words, _, rfl⟩
          cases fuel with
          | zero => cases enough
          | succ fuel =>
              rw [List.cons_append, readValue_string, ← List.cons_append,
                read]
              rfl
  | array items induction =>
      cases fuel with
      | zero => cases written <;> cases enough
      | succ fuel =>
          have around := delimiters (Or.inl rfl : ']' = ']' ∨ ']' = '}')
          cases written with
          | @emptyArray between blanks =>
              rw [List.cons_append, List.append_assoc,
                List.singleton_append, readValue_array,
                readSequence_empty around blanks]
              rfl
          | @array _ text parts =>
              simp only [List.length_cons, List.length_append] at enough
              have read :=
                readSequence_of_separatedText around
                  (surrounds_ends (Or.inl rfl)) (fun _ blanks => blanks)
                  (by
                    intro item word here
                    rcases ValueText.opens here with
                      ⟨head, tail, same, announced⟩
                    refine ⟨head, tail, same,
                      not_blank_of_announces announced, ?_⟩
                    rintro rfl
                    cases announced)
                  parts
                  (fun item listed word rest here short ends =>
                    induction item listed here
                      (show word.length ≤ fuel by omega) ends)
                  rest
              rw [List.cons_append, List.append_assoc,
                List.singleton_append, readValue_array, read]
              rfl
  | object members induction =>
      cases fuel with
      | zero => cases written <;> cases enough
      | succ fuel =>
          have around := delimiters (Or.inr rfl : '}' = ']' ∨ '}' = '}')
          cases written with
          | @emptyObject between blanks =>
              rw [List.cons_append, List.append_assoc,
                List.singleton_append, readValue_object,
                readSequence_empty around blanks]
              rfl
          | @object _ text parts =>
              simp only [List.length_cons, List.length_append] at enough
              have read :=
                readSequence_of_separatedText around
                  (surrounds_ends (Or.inr rfl)) (fun _ blanks => blanks)
                  (by
                    rintro member word ⟨⟨words, _, rfl⟩, _, _, _⟩
                    exact ⟨'"', _, rfl, by decide, by decide⟩)
                  parts
                  (fun member listed word rest here short ends =>
                    readMember_of_memberText starts_of_valueText
                      (fun word here short =>
                        induction member listed here
                          (show word.length ≤ fuel by omega) ends)
                      here short)
                  rest
              rw [List.cons_append, List.append_assoc,
                List.singleton_append, readValue_object, read]
              rfl

/-- Every JSON text is read as the value it stands for. -/
theorem readText_of_jsonText
    {number : List Char → Option Number} {value : Value} {text : List Char}
    (written : JsonText Blanks number value text) :
    readText number text = some value := by
  rcases written with ⟨before, word, after, opens, here, closes, rfl⟩
  have noMore : after.dropWhile isBlank = [] :=
    List.dropWhile_eq_nil_iff.mpr closes
  have ends : Ends after := by
    intro symbol others same
    have blank := closes symbol (by rw [same]; exact List.mem_cons_self)
    simp [(announces_eq_none (Or.inl blank)).2]
  have enough : word.length ≤ (before ++ (word ++ after)).length := by
    simp only [List.length_append]
    omega
  have read := readValue_of_valueText here enough ends
  rcases starts_of_valueText value word here with ⟨head, tail, rfl, solid⟩
  rw [readText]
  rw [List.cons_append] at read
  rw [List.cons_append, dropWhile_blanks opens solid]
  simp only [read, noMore, if_true]

/-- A text stands for one value at most. -/
theorem jsonText_unique
    {number : List Char → Option Number} {first second : Value} {text : List Char}
    (written : JsonText Blanks number first text)
    (written' : JsonText Blanks number second text) : first = second := by
  have read := readText_of_jsonText written
  rw [readText_of_jsonText written', Option.some.injEq] at read
  exact read.symm

end Trackward.ChainCore.JsonParser
