import Trackward.ChainCore.JsonValue
import Trackward.Lib.Hexadecimal
import Trackward.Lib.SeparatedTexts

/-!
# The grammar of JSON texts

The texts of RFC 8259 together with the values they stand for.  Two things are
left open: which blanks may stand between the symbols, so that the same grammar
describes compact texts, and which number a numeral stands for, if it stands for
one at all.

An escape of half a surrogate pair stands for no character, so a literal with
one stands for no text.
-/

namespace Trackward.ChainCore.JsonGrammar

open Trackward.ChainCore.JsonValue
open Trackward.Lib
open Trackward.Lib.PrefixCodes
open Trackward.Lib.SeparatedTexts

/-! ## Blanks -/

/-- Space, tabulator, line feed and carriage return. -/
def isBlank (symbol : Char) : Bool :=
  symbol = ' ' || symbol = '\t' || symbol = '\n' || symbol = '\r'

/-- Any run of blanks. -/
def Blanks (between : List Char) : Prop :=
  ∀ symbol ∈ between, isBlank symbol = true

/-- No blanks at all. -/
def NoBlanks (between : List Char) : Prop :=
  between = []

theorem noBlanks_nil : NoBlanks [] :=
  rfl

theorem NoBlanks.blanks {between : List Char} (none : NoBlanks between) :
    Blanks between := by
  intro symbol member
  rw [none] at member
  cases member

/-! ## String literals -/

/-- The character a letter after a backslash stands for. -/
def shortEscape (letter : Char) : Option Char :=
  if letter = '"' then some '"'
  else if letter = '\\' then some '\\'
  else if letter = '/' then some '/'
  else if letter = 'b' then some '\x08'
  else if letter = 'f' then some '\x0c'
  else if letter = 'n' then some '\n'
  else if letter = 'r' then some '\r'
  else if letter = 't' then some '\t'
  else none

/-- The code unit of four hexadecimal digits. -/
def codeUnit : List Char → Option Nat
  | [first, second, third, fourth] => do
      let first ← Hexadecimal.digitValue first
      let second ← Hexadecimal.digitValue second
      let third ← Hexadecimal.digitValue third
      let fourth ← Hexadecimal.digitValue fourth
      return 4096 * first + 256 * second + 16 * third + fourth
  | _ => none

/-- The first half of a surrogate pair. -/
def isHigh (unit : Nat) : Bool :=
  decide (0xD800 ≤ unit) && decide (unit < 0xDC00)

/-- The second half of a surrogate pair. -/
def isLow (unit : Nat) : Bool :=
  decide (0xDC00 ≤ unit) && decide (unit < 0xE000)

/-- The code point of a surrogate pair. -/
def pairValue (high low : Nat) : Nat :=
  0x10000 + 0x400 * (high - 0xD800) + (low - 0xDC00)

/-- The ways to write a character inside a literal. -/
inductive CharText : Code Char Char where
  | plain {symbol : Char} (printable : 0x20 ≤ symbol.toNat)
      (noQuote : symbol ≠ '"') (noBackslash : symbol ≠ '\\') :
      CharText symbol [symbol]
  | short {letter symbol : Char}
      (stands : shortEscape letter = some symbol) :
      CharText symbol ['\\', letter]
  | unit {symbol : Char} {digits : List Char}
      (stands : codeUnit digits = some symbol.toNat) :
      CharText symbol ('\\' :: 'u' :: digits)
  | pair {symbol : Char} {digits digits' : List Char} {high low : Nat}
      (first : codeUnit digits = some high)
      (second : codeUnit digits' = some low)
      (opens : isHigh high = true) (closes : isLow low = true)
      (stands : symbol.toNat = pairValue high low) :
      CharText symbol ('\\' :: 'u' :: (digits ++ '\\' :: 'u' :: digits'))

/-- A literal: the characters of the text between quotes. -/
def StringText (text : String) (word : List Char) : Prop :=
  ∃ words,
    List.Forall₂ CharText text.toList words ∧
      word = '"' :: (words.flatten ++ ['"'])

/-! ## Numerals -/

/-- A nonempty run of digits. -/
def Digits (word : List Char) : Prop :=
  word ≠ [] ∧ ∀ symbol ∈ word, IsDigit symbol

/-- The digits before the fraction, without leading zeros. -/
def WholeText (word : List Char) : Prop :=
  Digits word ∧ (word.head? = some '0' → word = ['0'])

/-- The fraction, if there is one. -/
def FractionText (word : List Char) : Prop :=
  word = [] ∨ ∃ digits, word = '.' :: digits ∧ Digits digits

/-- The exponent, if there is one. -/
def ExponentText (word : List Char) : Prop :=
  word = [] ∨
    ∃ mark ∈ ['e', 'E'], ∃ sign ∈ [[], ['+'], ['-']], ∃ digits,
      word = mark :: (sign ++ digits) ∧ Digits digits

/-- A numeral: sign, whole part, fraction and exponent. -/
def NumberText (word : List Char) : Prop :=
  ∃ sign ∈ [[], ['-']], ∃ whole fraction exponent,
    word = sign ++ (whole ++ (fraction ++ exponent)) ∧
      WholeText whole ∧ FractionText fraction ∧ ExponentText exponent

/-! ## Values -/

section Values

variable (blank : List Char → Prop) (number : List Char → Option Number)

/-- A member of an object, relative to the texts of values. -/
inductive MemberText (value : Code Char Value) : Code Char Member where
  | mk {key : String} {inner : Value}
      {keyWord before after word : List Char}
      (literal : StringText key keyWord) (opens : blank before)
      (closes : blank after) (written : value inner word) :
      MemberText value (key, inner)
        (keyWord ++ (before ++ ':' :: (after ++ word)))

/-- The texts of a value. -/
inductive ValueText : Code Char Value where
  | null : ValueText .null ['n', 'u', 'l', 'l']
  | true : ValueText (.bool Bool.true) ['t', 'r', 'u', 'e']
  | false : ValueText (.bool Bool.false) ['f', 'a', 'l', 's', 'e']
  | number {value : Number} {word : List Char}
      (numeral : NumberText word) (stands : number word = some value) :
      ValueText (.number value) word
  | string {text : String} {word : List Char}
      (literal : StringText text word) :
      ValueText (.string text) word
  | emptyArray {between : List Char} (blanks : blank between) :
      ValueText (.array []) ('[' :: (between ++ [']']))
  | array {items : List Value} {text : List Char}
      (written : SeparatedText blank ',' ValueText items text) :
      ValueText (.array items) ('[' :: (text ++ [']']))
  | emptyObject {between : List Char} (blanks : blank between) :
      ValueText (.object []) ('{' :: (between ++ ['}']))
  | object {members : List Member} {text : List Char}
      (written :
        SeparatedText blank ',' (MemberText blank ValueText) members text) :
      ValueText (.object members) ('{' :: (text ++ ['}']))

/-- A JSON text: a value between blanks. -/
def JsonText (value : Value) (text : List Char) : Prop :=
  ∃ before word after,
    blank before ∧ ValueText blank number value word ∧ blank after ∧
      text = before ++ (word ++ after)

end Values

/-- The texts with any blanks include those with none. -/
theorem ValueText.mono
    {blank blank' : List Char → Prop} {number : List Char → Option Number}
    {value : Value} {word : List Char}
    (more : ∀ between, blank between → blank' between)
    (written : ValueText blank number value word) :
    ValueText blank' number value word := by
  induction value using Value.nesting_induction generalizing word with
  | null =>
      cases written
      exact .null
  | bool value =>
      cases written
      · exact .true
      · exact .false
  | number value =>
      cases written with
      | number numeral stands => exact .number numeral stands
  | string text =>
      cases written with
      | string literal => exact .string literal
  | array items induction =>
      cases written with
      | emptyArray blanks => exact .emptyArray (more _ blanks)
      | array parts =>
          apply ValueText.array
          apply parts.mono more
          intro item listed word here
          exact induction item listed here
  | object members induction =>
      cases written with
      | emptyObject blanks => exact .emptyObject (more _ blanks)
      | object parts =>
          apply ValueText.object
          apply parts.mono more
          rintro ⟨key, inner⟩ listed word ⟨literal, opens, closes, here⟩
          apply MemberText.mk literal
          · exact more _ opens
          · exact more _ closes
          · exact induction (key, inner) listed here

end Trackward.ChainCore.JsonGrammar
