import Trackward.ChainCore.JsonParser

/-!
# Canonical texts are JSON texts

The canonical text of a value is a JSON text without blanks, and stands for the
value with its members sorted.  Any parser that reads the texts of the grammar
therefore reads the value back, up to the order of members.
-/

namespace Trackward.ChainCore.JsonTexts

open Trackward.ChainCore.CanonicalJson
open Trackward.ChainCore.JsonGrammar
open Trackward.ChainCore.JsonNumerals
open Trackward.ChainCore.JsonParser
open Trackward.ChainCore.JsonReader
open Trackward.ChainCore.JsonValue
open Trackward.Lib
open Trackward.Lib.KeyedLists
open Trackward.Lib.PrefixCodes
open Trackward.Lib.SeparatedTexts

/-- A text of the grammar, whatever floats its numerals stand for. -/
def Grammatical (blank : List Char → Prop) (text : String) : Prop :=
  ∃ number value, JsonText blank number value text.toList

/-- A parser that reads every JSON text as the value it stands for. -/
def Conforms
    (float : List Char → Option UInt64) (parse : String → Option Json) : Prop :=
  ∀ (text : String) (json : Json),
    JsonText Blanks (numberOf float) json.value text.toList →
      ∃ found, parse text = some found ∧ found.Same json

/-! ## Numerals -/

/-- No numeral but zero starts with a zero. -/
theorem toDigits_eq_zero {value : Nat}
    (leading : (Nat.toDigits 10 value).head? = some '0') :
    Nat.toDigits 10 value = ['0'] := by
  induction value using Nat.strongRecOn with
  | ind value induction =>
      rcases Nat.lt_or_ge value 10 with small | large
      · rw [Nat.toDigits_of_lt_base small] at leading ⊢
        rw [List.head?_cons, Option.some.injEq] at leading
        rw [leading]
      · have positive : value / 10 ≠ 0 := by omega
        rw [Nat.toDigits_of_base_le (by decide) large,
          List.head?_append_of_ne_nil _ Nat.toDigits_ne_nil] at leading
        have back := @Nat.ofDigitChars_ten_toDigits (value / 10)
        rw [induction (value / 10) (by omega) leading] at back
        exact absurd back.symm positive

theorem wholeText_toDigits (value : Nat) :
    WholeText (Nat.toDigits 10 value) := by
  constructor
  · constructor
    · exact Nat.toDigits_ne_nil
    · intro symbol member
      exact Nat.isDigit_of_mem_toDigits (by decide) (by decide) member
  · exact toDigits_eq_zero

/-- The decimal text of an integer is a numeral. -/
theorem numberText_decimal (value : Int) : NumberText (decimal value) := by
  have whole := wholeText_toDigits value.natAbs
  unfold decimal
  split
  · refine ⟨['-'], by simp, _, [], [], ?_, whole, Or.inl rfl, Or.inl rfl⟩
    rw [List.append_nil, List.append_nil, List.singleton_append]
  · refine ⟨[], by simp, _, [], [], ?_, whole, Or.inl rfl, Or.inl rfl⟩
    rw [List.append_nil, List.append_nil, List.nil_append]

/-- No integer is written as a negative zero. -/
theorem decimal_ne_negative_zero (value : Int) :
    decimal value ≠ ['-', '0'] := by
  intro same
  unfold decimal at same
  split at same
  case isTrue negative =>
      have back := @Nat.ofDigitChars_ten_toDigits value.natAbs
      rw [(List.cons.inj same).2] at back
      have zero : value.natAbs = 0 := back.symm
      omega
  case isFalse natural =>
      rcases toDigits_cons value.natAbs with ⟨head, tail, numeral, digit⟩
      rw [numeral] at same
      rw [(List.cons.inj same).1] at digit
      cases digit

/-- The decimal text of an integer of 64 bits stands for it. -/
theorem numberOf_decimal
    (float : List Char → Option UInt64) (value : Int)
    (low : -2 ^ 63 ≤ value) (high : value < 2 ^ 64) :
    numberOf float (decimal value) = some (.integer value low high) := by
  have ends : Stops IsDigit [] := by
    intro symbol tail absurdity
    cases absurdity
  have read := readInteger_decimal value ends
  rw [List.append_nil] at read
  have fits :
      -2 ^ 63 ≤ value ∧ value < 2 ^ 64 ∧ decimal value ≠ ['-', '0'] :=
    ⟨low, high, decimal_ne_negative_zero value⟩
  simp only [numberOf, read, dif_pos fits]

/-! ## Literals -/

/-- Four digits stand for the unit they are made from. -/
theorem codeUnit_hex4 {unit : Nat} (bound : unit < 0x10000) :
    codeUnit (hex4 unit) = some unit := by
  have digit : ∀ value, Hexadecimal.digitValue
      (Nat.digitChar (value % 16)) = some (value % 16) :=
    fun value => Hexadecimal.digitValue_digitChar _ (by omega)
  simp only [codeUnit, hex4, digit, Option.bind_eq_bind, Option.bind_some,
    Option.pure_def, Option.some.injEq]
  omega

/-- An escaped character is a text of the character. -/
theorem charText_escape (symbol : Char) : CharText symbol (escape symbol) := by
  unfold escape
  split
  case h_8 noQuote noBackslash _ _ _ _ _ =>
      split
      case isTrue control =>
          exact .unit (codeUnit_hex4 (Nat.lt_trans control (by decide)))
      case isFalse printable =>
          exact .plain (Nat.le_of_not_lt printable) noQuote noBackslash
  all_goals exact .short rfl

theorem stringText_writeString (text : String) :
    StringText text (writeString text) := by
  refine ⟨text.toList.map escape, ?_, rfl⟩
  rw [List.forall₂_map_right_iff, List.forall₂_same]
  intro symbol _
  exact charText_escape symbol

/-! ## Arranged members -/

section Arranged

variable {κ : Type} [LinearOrder κ] (key : String → κ)

mutual

/-- The value with the members of every object in the order of their keys. -/
def arrange : Value → Value
  | .array items => .array (arrangeItems items)
  | .object members =>
      .object
        (sortByKey (fun member => key member.1) (arrangeMembers members))
  | .null => .null
  | .bool value => .bool value
  | .number value => .number value
  | .string text => .string text

/-- The items of an array, each with its members in order. -/
def arrangeItems : List Value → List Value
  | [] => []
  | item :: items => arrange item :: arrangeItems items

/-- The members of an object, the inner ones in order. -/
def arrangeMembers : List (String × Value) → List (String × Value)
  | [] => []
  | (name, value) :: members =>
      (name, arrange value) :: arrangeMembers members

end

theorem arrange_array (items : List Value) :
    arrange key (.array items) = .array (items.map (arrange key)) := by
  rw [arrange]
  congr 1
  induction items with
  | nil => rfl
  | cons item items induction => simp [arrangeItems, induction]

/-- A member with the members of its value in order. -/
def arrangeMember (member : Member) : Member :=
  (member.1, arrange key member.2)

/-- The members are arranged inside first and sorted then, or sorted first. -/
theorem arrange_object (members : List Member) :
    arrange key (.object members) =
      .object
        ((sortByKey (fun member => key member.1) members).map
          (arrangeMember key)) := by
  have inside :
      arrangeMembers key members = members.map (arrangeMember key) := by
    induction members with
    | nil => rfl
    | cons member members induction =>
        rcases member with ⟨name, value⟩
        simp [arrangeMembers, arrangeMember, induction]
  have sorted :
      sortByKey (fun member => key member.1)
          (members.map (arrangeMember key)) =
        (sortByKey (fun member => key member.1) members).map
          (arrangeMember key) :=
    (map_sortByKey (fun _ => rfl) members).symm
  rw [arrange, inside, sorted]

/-- Arranging the members gives the same value. -/
theorem arrange_same (value : Value) : (arrange key value).Same value := by
  induction value using Value.nesting_induction with
  | null => exact .null
  | bool value => exact .bool value
  | number value => exact .number value
  | string text => exact .string text
  | array items induction =>
      rw [arrange_array]
      apply Value.Same.array
      rw [List.forall₂_map_left_iff, List.forall₂_same]
      exact induction
  | object members induction =>
      rw [arrange_object, Value.same_object_iff]
      refine ⟨_, ?_, sortByKey_perm (fun member => key member.1) members⟩
      rw [List.forall₂_map_left_iff, List.forall₂_same]
      intro member listed
      exact ⟨rfl, induction member (mem_sortByKey.mp listed)⟩

end Arranged

/-! ## Values -/

/-- The order of keys in canonical texts. -/
abbrev byKey : String → String :=
  fun name => name

/-- Lists related by one relation are related by a weaker one. -/
theorem forall₂_of_mem
    {α β : Type} {first second : α → β → Prop} {entries : List α}
    {entries' : List β}
    (related : List.Forall₂ first entries entries')
    (weaker : ∀ entry ∈ entries, ∀ entry', first entry entry' →
      second entry entry') :
    List.Forall₂ second entries entries' := by
  induction related with
  | nil => exact .nil
  | cons head _ induction =>
      constructor
      · exact weaker _ List.mem_cons_self _ head
      · exact
          induction fun entry member =>
            weaker entry (List.mem_cons_of_mem _ member)

section Compact

variable {number : List Char → Option Number} {words : List (List Char)}

/-- The texts of the items make the text of the array. -/
theorem valueText_array {items : List Value}
    (texts : List.Forall₂ (ValueText NoBlanks number) items words) :
    ValueText NoBlanks number (.array items)
      ('[' :: separated ',' words ++ [']']) := by
  cases texts with
  | nil => exact .emptyArray rfl
  | cons head tail =>
      apply ValueText.array
      exact
        .of_separated noBlanks_nil (.cons head tail) (List.cons_ne_nil _ _)

/-- The texts of the members make the text of the object. -/
theorem valueText_object {members : List Member}
    (texts :
      List.Forall₂ (MemberText NoBlanks (ValueText NoBlanks number)) members
        words) :
    ValueText NoBlanks number (.object members)
      ('{' :: separated ',' words ++ ['}']) := by
  cases texts with
  | nil => exact .emptyObject rfl
  | cons head tail =>
      apply ValueText.object
      exact
        .of_separated noBlanks_nil (.cons head tail) (List.cons_ne_nil _ _)

/-- A key and the text of a value make the text of a member. -/
theorem memberText_writeString {key : String} {value : Value}
    {word : List Char} (text : ValueText NoBlanks number value word) :
    MemberText NoBlanks (ValueText NoBlanks number) (key, value)
      (writeString key ++ ':' :: word) :=
  .mk (stringText_writeString key) noBlanks_nil noBlanks_nil text

end Compact

/--
What the writer writes for a value is a text without blanks of the value with
its members in order.
-/
theorem valueText_writeValue
    (float : List Char → Option UInt64) {value : Value} {word : List Char}
    (written : writeValue value = .ok word) :
    ValueText NoBlanks (numberOf float) (arrange byKey value) word := by
  induction value using Value.nesting_induction generalizing word with
  | null =>
      cases written
      exact .null
  | bool value =>
      cases value <;> cases written
      · exact .false
      · exact .true
  | number number =>
      cases number with
      | float bits => cases written
      | integer value low high =>
          rw [writeValue_integer, Except.ok.injEq] at written
          subst written
          exact
            .number (numberText_decimal value)
              (numberOf_decimal float value low high)
  | string text =>
      cases written
      exact .string (stringText_writeString text)
  | array items induction =>
      rcases writeValue_array_eq_ok written with ⟨words, texts, rfl⟩
      have inside :
          List.Forall₂ (ValueText NoBlanks (numberOf float))
            (items.map (arrange byKey)) words := by
        rw [List.forall₂_map_left_iff]
        apply forall₂_of_mem texts
        intro item listed word here
        exact induction item listed here
      rw [arrange_array]
      exact valueText_array inside
  | object members induction =>
      rcases writeValue_object_eq_ok written with ⟨words, texts, rfl⟩
      have inside :
          List.Forall₂
            (MemberText NoBlanks (ValueText NoBlanks (numberOf float)))
            ((sortByKey Prod.fst members).map (arrangeMember byKey))
            words := by
        rw [List.forall₂_map_left_iff]
        apply forall₂_of_mem texts
        intro member listed word here
        rcases memberText_eq_ok here with ⟨valueWord, inner, rfl⟩
        exact
          memberText_writeString
            (induction member (mem_sortByKey.mp listed) inner)
      rw [arrange_object]
      exact valueText_object inside

/-- An entry of a list is related to one of the other list. -/
theorem exists_related
    {α β : Type} {same : α → β → Prop} {entries : List α}
    {entries' : List β} {entry : α}
    (related : List.Forall₂ same entries entries')
    (listed : entry ∈ entries) : ∃ entry' ∈ entries', same entry entry' := by
  induction related with
  | nil => cases listed
  | cons head _ induction =>
      rcases List.mem_cons.mp listed with rfl | later
      · exact ⟨_, List.mem_cons_self, head⟩
      · rcases induction later with ⟨entry', listed', both⟩
        exact ⟨entry', List.mem_cons_of_mem _ listed', both⟩

/-- A value that is the same as a well-formed one is well-formed. -/
theorem wellFormed_of_same {first second : Value}
    (formed : second.WellFormed) (same : first.Same second) :
    first.WellFormed := by
  induction first using Value.nesting_induction generalizing second with
  | array items induction =>
      cases same with
      | array pointwise =>
          rw [Value.wellFormed_array_iff] at formed ⊢
          intro item listed
          rcases exists_related pointwise listed with ⟨item', listed', both⟩
          exact induction item listed (formed item' listed') both
  | object members induction =>
      cases second with
      | object members' =>
          have reordered := Value.same_object_iff.mp same
          rw [Value.wellFormed_object_iff] at formed ⊢
          constructor
          · exact reordered.nodup (fun _ _ both => both.1) formed.1
          · intro member listed
            rcases reordered with ⟨arranged, pointwise, perm⟩
            rcases exists_related pointwise listed with
              ⟨member', listed', both⟩
            have present := perm.mem_iff.mp listed'
            exact induction member listed (formed.2 member' present) both.2
      | _ => cases same
  | _ => simp [Value.WellFormed, Value.nested, Value.distinctKeys]

/-- The value with its members in the order of their keys. -/
def arranged (json : Json) : Json where
  value := arrange byKey json.value
  wellFormed :=
    wellFormed_of_same json.wellFormed (arrange_same byKey json.value)

theorem jsonText_of_valueText
    {number : List Char → Option Number} {value : Value} {word : List Char}
    (written : ValueText NoBlanks number value word) :
    JsonText NoBlanks number value word :=
  ⟨[], word, [], rfl, written, rfl, (List.append_nil word).symm⟩

/-- The canonical text exists exactly for values without floats. -/
theorem toCanonicalString_isOk_iff {value : Value} :
    (∃ text, toCanonicalString value = .ok text) ↔ value.FloatFree := by
  rw [← writeValue_isOk_iff, toCanonicalString]
  cases writeValue value <;> simp [Functor.map, Except.map]

/-- The canonical text of a value is a text of the arranged value. -/
theorem jsonText_toCanonicalString
    (float : List Char → Option UInt64) (json : Json) (free : json.FloatFree) :
    ∃ text, toCanonicalString json.value = .ok text ∧
      JsonText NoBlanks (numberOf float) (arranged json).value
        text.toList := by
  rcases (writeValue_isOk_iff json.value).mpr free with ⟨word, written⟩
  refine ⟨String.ofList word, ?_, ?_⟩
  · rw [toCanonicalString, written]
    rfl
  · rw [String.toList_ofList]
    exact jsonText_of_valueText (valueText_writeValue float written)

/-! ## Parsers -/

/-- Any blanks are allowed where none are needed. -/
theorem jsonText_of_noBlanks
    {number : List Char → Option Number} {value : Value} {text : List Char}
    (compact : JsonText NoBlanks number value text) :
    JsonText Blanks number value text := by
  rcases compact with ⟨before, word, after, opens, here, closes, rfl⟩
  have more : ∀ between, NoBlanks between → Blanks between :=
    fun _ none => none.blanks
  exact
    ⟨before, word, after, more _ opens, here.mono more, more _ closes, rfl⟩

/-- The parser of the reader, which refuses repeated keys. -/
def parseText (float : List Char → Option UInt64) (text : String) : Option Json :=
  match readText (numberOf float) text.toList with
  | some value =>
      if formed : value.WellFormed then some ⟨value, formed⟩ else none
  | none => none

theorem conforms_parseText (float : List Char → Option UInt64) :
    Conforms float (parseText float) := by
  intro text json written
  refine ⟨json, ?_, .refl json⟩
  simp only [parseText, readText_of_jsonText written,
    dif_pos json.wellFormed]

theorem toCanonicalString_eq_of_same {first second : Value}
    (formed : second.WellFormed) (same : first.Same second) :
    toCanonicalString first = toCanonicalString second := by
  rw [toCanonicalString, toCanonicalString, writeValue_eq_of_same formed same]

/-- An object with a nested one, an integer and escapes. -/
def reading : Json where
  value :=
    .object
      [("b", .array [.number (.integer (-7) (by decide) (by decide)), .null]),
        ("a\n", .object [("é", .string "\x01\"")])]
  wellFormed := by decide

/-- The same object, its members the other way round. -/
def rereading : Json where
  value :=
    .object
      [("a\n", .object [("é", .string "\x01\"")]),
        ("b", .array [.number (.integer (-7) (by decide) (by decide)), .null])]
  wellFormed := by decide

/--
Canonical JSON is faithful: the text of a value without floats is a JSON text
without blanks, every conforming parser reads the value back, and two values
have one text exactly when they are equal up to the order of members.
-/
theorem canonical_text_faithful
    (float : List Char → Option UInt64) (first second : Json)
    (free : first.FloatFree) :
    (∃ text, toCanonicalString first.value = .ok text ∧
      Grammatical NoBlanks text ∧
        ∀ parse, Conforms float parse →
          ∃ found, parse text = some found ∧ found.Same first) ∧
      (toCanonicalString first.value = toCanonicalString second.value ↔
        first.Same second) := by
  constructor
  · rcases jsonText_toCanonicalString float first free with
      ⟨text, written, compact⟩
    refine ⟨text, written, ⟨_, _, compact⟩, ?_⟩
    intro parse conforms
    rcases conforms text (arranged first) (jsonText_of_noBlanks compact) with
      ⟨found, parsed, agree⟩
    refine ⟨found, parsed, same_of_toCanonicalString ?_ written⟩
    calc toCanonicalString found.value
        _ = toCanonicalString (arranged first).value :=
          toCanonicalString_eq_of_same (arranged first).wellFormed agree
        _ = toCanonicalString first.value :=
          toCanonicalString_eq_of_same first.wellFormed
            (arrange_same byKey first.value)
        _ = .ok text := written
  · exact toCanonicalString_eq_iff second.wellFormed free

theorem canonical_text_faithful_reading :
    (∃ text, toCanonicalString reading.value = .ok text ∧
      Grammatical NoBlanks text ∧
        ∃ found, parseText (fun _ => none) text = some found ∧
          found.Same reading) ∧
      (toCanonicalString reading.value = toCanonicalString rereading.value ↔
        reading.Same rereading) := by
  have free : reading.FloatFree := by decide
  rcases canonical_text_faithful (fun _ => none) reading rereading free with
    ⟨⟨text, written, grammatical, readable⟩, agree⟩
  refine ⟨⟨text, written, grammatical, ?_⟩, agree⟩
  exact readable _ (conforms_parseText fun _ => none)

end Trackward.ChainCore.JsonTexts
