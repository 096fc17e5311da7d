import Trackward.ChainCore.JsonParser

/-!
# The parser reads JSON texts only

Soundness of the reader: what it reads is a text of the grammar.  With
completeness, the reader and the grammar relate the same texts to the same
values.
-/

namespace Trackward.ChainCore.JsonSoundness

open Trackward.ChainCore.CanonicalJson
open Trackward.ChainCore.JsonGrammar
open Trackward.ChainCore.JsonNumerals
open Trackward.ChainCore.JsonParser
open Trackward.ChainCore.JsonValue
open Trackward.Lib
open Trackward.Lib.PrefixCodes
open Trackward.Lib.SeparatedTexts

/-! ## Literals -/

theorem digitValue_lt {symbol : Char} {value : Nat}
    (digit : Hexadecimal.digitValue symbol = some value) : value < 16 := by
  unfold Hexadecimal.digitValue at digit
  split at digit
  case isTrue decimal =>
      have upper : symbol.toNat ≤ '9'.toNat := decimal.2
      cases digit
      have last : '9'.toNat = 57 := rfl
      have first : '0'.toNat = 48 := rfl
      omega
  case isFalse =>
      split at digit
      case isTrue lower =>
          have upper : symbol.toNat ≤ 'f'.toNat := lower.2
          cases digit
          have last : 'f'.toNat = 102 := rfl
          have first : 'a'.toNat = 97 := rfl
          omega
      case isFalse =>
          split at digit
          case isTrue capital =>
              have upper : symbol.toNat ≤ 'F'.toNat := capital.2
              cases digit
              have last : 'F'.toNat = 70 := rfl
              have first : 'A'.toNat = 65 := rfl
              omega
          case isFalse => cases digit

/-- Four digits make a unit of 16 bits. -/
theorem codeUnit_lt {digits : List Char} {unit : Nat}
    (stands : codeUnit digits = some unit) : unit < 0x10000 := by
  rcases digits with
    _ | ⟨first, _ | ⟨second, _ | ⟨third, _ | ⟨fourth, _ | ⟨_, _⟩⟩⟩⟩⟩
  all_goals try cases stands
  simp only [codeUnit, Option.bind_eq_bind, Option.bind_eq_some_iff,
    Option.pure_def, Option.some.injEq] at stands
  rcases stands with ⟨a, isA, b, isB, c, isC, d, isD, rfl⟩
  have := digitValue_lt isA
  have := digitValue_lt isB
  have := digitValue_lt isC
  have := digitValue_lt isD
  omega

/-- A unit that is read is written with the digits in front. -/
theorem exists_digits {stream rest : List Char} {unit : Nat}
    (read : readUnit stream = some (unit, rest)) :
    ∃ digits, codeUnit digits = some unit ∧ stream = digits ++ rest := by
  rcases stream with _ | ⟨first, _ | ⟨second, _ | ⟨third, _ | ⟨fourth, others⟩⟩⟩⟩
  all_goals try cases read
  rcases Option.map_eq_some_iff.mp read with ⟨value, stands, same⟩
  cases same
  exact ⟨[first, second, third, fourth], stands, rfl⟩

theorem toNat_ofNat {code : Nat} (bound : code < 0x110000)
    (high : isHigh code = false) (low : isLow code = false) :
    (Char.ofNat code).toNat = code := by
  have valid : code.isValidChar := by
    simp only [isHigh, isLow, Bool.and_eq_false_iff,
      decide_eq_false_iff_not] at high low
    rw [Nat.isValidChar]
    omega
  rw [Char.ofNat, dif_pos valid]
  rfl

/-- The code point of a pair is a character. -/
theorem toNat_pairValue {high low : Nat} (isHigh' : isHigh high = true)
    (isLow' : isLow low = true) :
    (Char.ofNat (pairValue high low)).toNat = pairValue high low := by
  simp only [isHigh, isLow, Bool.and_eq_true, decide_eq_true_eq]
    at isHigh' isLow'
  have value :
      pairValue high low =
        0x10000 + 0x400 * (high - 0xD800) + (low - 0xDC00) :=
    rfl
  generalize pairValue high low = code at value
  have bounds : 0xE000 ≤ code ∧ code < 0x110000 := by omega
  have outside : isHigh code = false ∧ isLow code = false := by
    simp only [isHigh, isLow, Bool.and_eq_false_iff, decide_eq_false_iff_not]
    omega
  exact toNat_ofNat bounds.2 outside.1 outside.2

/-- The second half of a pair that is read is written in front. -/
theorem exists_low {high : Nat} {stream rest : List Char} {symbol : Char}
    (read : readLow high stream = some (symbol, rest)) :
    ∃ digits low, codeUnit digits = some low ∧ isLow low = true ∧
      symbol = Char.ofNat (pairValue high low) ∧
        stream = '\\' :: 'u' :: (digits ++ rest) := by
  unfold readLow at read
  split at read
  case h_2 => cases read
  case h_1 later =>
      cases first : readUnit later with
      | none => simp [first] at read
      | some found =>
          rcases found with ⟨low, others⟩
          rcases exists_digits first with ⟨digits, stands, rfl⟩
          simp only [first] at read
          split at read
          case isFalse => cases read
          case isTrue isLow' =>
              rw [Option.some.injEq, Prod.mk.injEq] at read
              rw [← read.2]
              exact ⟨digits, low, stands, isLow', read.1.symm, rfl⟩

/-- A character that is read after `\u` is written in front. -/
theorem charText_of_readUnicode {stream rest : List Char} {symbol : Char}
    (read : readUnicode stream = some (symbol, rest)) :
    ∃ word, CharText symbol ('\\' :: 'u' :: word) ∧ stream = word ++ rest := by
  rw [readUnicode] at read
  cases first : readUnit stream with
  | none => simp [first] at read
  | some found =>
      rcases found with ⟨unit, later⟩
      rcases exists_digits first with ⟨digits, stands, rfl⟩
      have bound := codeUnit_lt stands
      simp only [first] at read
      split at read
      case isTrue high =>
          rcases exists_low read with
            ⟨digits', low, stands', low', same, rfl⟩
          have value : symbol.toNat = pairValue unit low := by
            rw [same]
            exact toNat_pairValue high low'
          exact ⟨_, .pair stands stands' high low' value, by simp⟩
      case isFalse notHigh =>
          split at read
          case isTrue => cases read
          case isFalse notLow =>
              cases read
              refine ⟨digits, .unit ?_, rfl⟩
              rw [toNat_ofNat (by omega) (by simpa using notHigh)
                (by simpa using notLow)]
              exact stands

/-- A character that is read is written in front. -/
theorem charText_of_readChar {stream rest : List Char} {symbol : Char}
    (noQuote : stream.head? ≠ some '"')
    (read : readChar stream = some (symbol, rest)) :
    ∃ word, CharText symbol word ∧ stream = word ++ rest := by
  cases stream with
  | nil => cases read
  | cons head stream =>
      have other : head ≠ '"' := by simpa using noQuote
      by_cases backslash : head = '\\'
      · subst backslash
        cases stream with
        | nil => cases read
        | cons letter stream =>
            simp only [readChar, if_true] at read
            split at read
            case isTrue isU =>
                subst isU
                rcases charText_of_readUnicode read with ⟨word, text, rfl⟩
                exact ⟨_, text, rfl⟩
            case isFalse =>
                rcases Option.map_eq_some_iff.mp read with
                  ⟨value, stands, same⟩
                cases same
                exact ⟨_, .short stands, rfl⟩
      · simp only [readChar, backslash, if_false] at read
        split at read
        case isFalse => cases read
        case isTrue printable =>
            cases read
            exact ⟨[symbol], .plain printable other backslash, rfl⟩

/-- Characters that are read up to a quote are written in front. -/
theorem charTexts_of_readSymbols {fuel : Nat} {stream rest : List Char}
    {symbols : List Char}
    (read : readSymbols fuel stream = some (symbols, rest)) :
    ∃ words, List.Forall₂ CharText symbols words ∧
      stream = words.flatten ++ '"' :: rest := by
  induction fuel generalizing stream symbols with
  | zero => cases read
  | succ fuel induction =>
      rw [readSymbols] at read
      split at read
      case isTrue closed =>
          cases read
          cases stream with
          | nil => cases closed
          | cons head tail =>
              cases closed
              exact ⟨[], .nil, rfl⟩
      case isFalse noQuote =>
          cases first : readChar stream with
          | none => simp [first] at read
          | some found =>
              rcases found with ⟨symbol, later⟩
              simp only [first] at read
              rcases Option.map_eq_some_iff.mp read with
                ⟨⟨others, rest'⟩, tail, same⟩
              cases same
              rcases charText_of_readChar noQuote first with
                ⟨word, text, rfl⟩
              rcases induction tail with ⟨words, texts, rfl⟩
              refine ⟨word :: words, .cons text texts, ?_⟩
              rw [List.flatten_cons, List.append_assoc]

/-- A literal that is read is written in front. -/
theorem stringText_of_readString {stream rest : List Char} {text : String}
    (read : readString stream = some (text, rest)) :
    ∃ word, StringText text word ∧ stream = word ++ rest := by
  rw [readString] at read
  split at read
  case isFalse => cases read
  case isTrue opened =>
      rcases Option.map_eq_some_iff.mp read with ⟨⟨symbols, rest'⟩, found, same⟩
      cases same
      cases stream with
      | nil => cases opened
      | cons head tail =>
          cases opened
          rcases charTexts_of_readSymbols found with ⟨words, texts, split⟩
          rw [List.tail_cons] at split
          refine ⟨_, ⟨words, ?_, rfl⟩, ?_⟩
          · rwa [String.toList_ofList]
          · rw [split]
            simp

/-! ## Values -/

/-- A member that is read is written in front, if its value is. -/
theorem memberText_of_readMember
    {read : List Char → Option (Value × List Char)} {code : Code Char Value}
    {stream rest : List Char} {member : Member}
    (sound :
      ∀ stream value rest, read stream = some (value, rest) →
        ∃ word, code value word ∧ stream = word ++ rest)
    (found : readMember read stream = some (member, rest)) :
    ∃ word, MemberText Blanks code member word ∧ stream = word ++ rest := by
  rw [readMember] at found
  cases key : readString stream with
  | none => simp [key] at found
  | some first =>
      rcases first with ⟨name, later⟩
      rcases stringText_of_readString key with ⟨keyWord, literal, rfl⟩
      rcases exists_blanks (fun _ blanks => blanks) later with
        ⟨before, opens, split⟩
      simp only [key] at found
      cases next : later.dropWhile isBlank with
      | nil => simp [next] at found
      | cons symbol others =>
          rw [next] at split
          simp only [next] at found
          split at found
          case isFalse => cases found
          case isTrue colon =>
              subst colon
              rcases Option.map_eq_some_iff.mp found with
                ⟨⟨value, rest'⟩, inner, same⟩
              cases same
              rcases exists_blanks (fun _ blanks => blanks) others with
                ⟨after, closes, split'⟩
              rcases sound _ _ _ inner with ⟨word, written, split''⟩
              refine ⟨_, .mk literal opens closes written, ?_⟩
              rw [split, split', split'']
              simp

theorem readWord_eq_some {word stream rest : List Char}
    {value found : Value}
    (read : readWord word value stream = some (found, rest)) :
    found = value ∧ stream = word ++ rest := by
  rw [readWord] at read
  split at read
  case isFalse => cases read
  case isTrue starts =>
      cases read
      refine ⟨rfl, ?_⟩
      calc stream
          _ = stream.take word.length ++ stream.drop word.length :=
            (List.take_append_drop _ _).symm
          _ = word ++ stream.drop word.length := by rw [starts]

/-- The symbols that announce arrays and objects. -/
theorem announces_bracket {symbol : Char} :
    (announces symbol = some .array → symbol = '[') ∧
      (announces symbol = some .object → symbol = '{') := by
  unfold announces
  constructor
  · intro announced
    split_ifs at announced <;> first | assumption | cases announced
  · intro announced
    split_ifs at announced <;> first | assumption | cases announced

/-- A number that is read is written in front. -/
theorem valueText_of_readNumber
    {number : List Char → Option Number} {stream rest : List Char}
    {value : Value}
    (read : readNumber number stream = some (value, rest)) :
    ∃ word, ValueText Blanks number value word ∧ stream = word ++ rest := by
  rw [readNumber] at read
  split at read
  case isFalse => cases read
  case isTrue checked =>
      rcases Option.map_eq_some_iff.mp read with ⟨found, stands, same⟩
      cases same
      refine ⟨_, .number ((isNumeral_iff _).mp checked) stands, ?_⟩
      exact List.takeWhile_append_dropWhile.symm

section Nested

variable {number : List Char → Option Number}
  {inner : List Char → Option (Value × List Char)}
  {stream rest : List Char} {value : Value}

/-- An array that is read is written in front, if its items are. -/
theorem valueText_of_readArray
    (sound :
      ∀ stream value rest, inner stream = some (value, rest) →
        ∃ word, ValueText Blanks number value word ∧
          stream = word ++ rest)
    (read :
      (readSequence isBlank ',' ']' inner stream).map
          (fun read => (Value.array read.1, read.2)) =
        some (value, rest)) :
    ∃ word, ValueText Blanks number value word ∧
      '[' :: stream = word ++ rest := by
  rcases Option.map_eq_some_iff.mp read with ⟨⟨items, rest'⟩, found, same⟩
  cases same
  rcases text_of_readSequence (fun _ blanks => blanks) sound found with
    ⟨rfl, between, blanks, rfl⟩ | ⟨text, written, rfl⟩
  · exact ⟨_, .emptyArray blanks, by simp⟩
  · exact ⟨_, .array written, by simp⟩

/-- An object that is read is written in front, if its values are. -/
theorem valueText_of_readObject
    (sound :
      ∀ stream value rest, inner stream = some (value, rest) →
        ∃ word, ValueText Blanks number value word ∧
          stream = word ++ rest)
    (read :
      (readSequence isBlank ',' '}' (readMember inner) stream).map
          (fun read => (Value.object read.1, read.2)) =
        some (value, rest)) :
    ∃ word, ValueText Blanks number value word ∧
      '{' :: stream = word ++ rest := by
  rcases Option.map_eq_some_iff.mp read with ⟨⟨members, rest'⟩, found, same⟩
  cases same
  rcases text_of_readSequence (fun _ blanks => blanks)
      (fun _ _ _ => memberText_of_readMember sound) found with
    ⟨rfl, between, blanks, rfl⟩ | ⟨text, written, rfl⟩
  · exact ⟨_, .emptyObject blanks, by simp⟩
  · exact ⟨_, .object written, by simp⟩

end Nested

/-- A value that is read is written in front. -/
theorem valueText_of_readValue
    {number : List Char → Option Number} {fuel : Nat}
    {stream rest : List Char} {value : Value}
    (read : readValue number fuel stream = some (value, rest)) :
    ∃ word, ValueText Blanks number value word ∧ stream = word ++ rest := by
  induction fuel generalizing stream value rest with
  | zero => cases read
  | succ fuel induction =>
      cases stream with
      | nil => cases read
      | cons head tail =>
          rw [readValue, List.head?_cons, Option.bind_some] at read
          cases announced : announces head with
          | none => simp [announced] at read
          | some shape =>
              simp only [announced] at read
              cases shape with
              | null =>
                  rcases readWord_eq_some read with ⟨rfl, split⟩
                  exact ⟨_, .null, split⟩
              | bool value =>
                  cases value with
                  | true =>
                      rcases readWord_eq_some read with ⟨rfl, split⟩
                      exact ⟨_, .true, split⟩
                  | false =>
                      rcases readWord_eq_some read with ⟨rfl, split⟩
                      exact ⟨_, .false, split⟩
              | number => exact valueText_of_readNumber read
              | string =>
                  rcases Option.map_eq_some_iff.mp read with
                    ⟨⟨text, rest'⟩, found, same⟩
                  cases same
                  rcases stringText_of_readString found with
                    ⟨word, literal, split⟩
                  exact ⟨word, .string literal, split⟩
              | array =>
                  rw [announces_bracket.1 announced]
                  exact valueText_of_readArray (fun _ _ _ => induction) read
              | object =>
                  rw [announces_bracket.2 announced]
                  exact valueText_of_readObject (fun _ _ _ => induction) read

/-- The texts of the grammar are what the reader reads. -/
theorem readText_eq_some_iff
    {number : List Char → Option Number} {value : Value}
    {text : List Char} :
    readText number text = some value ↔ JsonText Blanks number value text := by
  constructor
  · intro read
    rw [readText] at read
    cases found : readValue number text.length (text.dropWhile isBlank) with
    | none => simp [found] at read
    | some first =>
        rcases first with ⟨value', rest⟩
        simp only [found] at read
        split at read
        case isFalse => cases read
        case isTrue ended =>
            cases read
            rcases valueText_of_readValue found with ⟨word, written, split⟩
            rcases exists_blanks (fun _ blanks => blanks) text with
              ⟨before, opens, whole⟩
            refine ⟨before, word, rest, opens, written, ?_, ?_⟩
            · exact List.dropWhile_eq_nil_iff.mp ended
            · rw [← split]
              exact whole
  · exact readText_of_jsonText

end Trackward.ChainCore.JsonSoundness
