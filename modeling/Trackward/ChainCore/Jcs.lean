import Trackward.ChainCore.JsonTexts
import Trackward.Lib.TextOrders

/-!
# The JSON canonicalization scheme

RFC 8785 for values whose numbers are integers below 2^53: the members of every
object in the order of the UTF-16 units of their keys, no blanks, and the
escapes of ECMAScript.  The text of `toCanonicalString` is the one of the scheme
exactly when no object has two keys that UTF-8 and UTF-16 order differently.
-/

namespace Trackward.ChainCore.Jcs

open Trackward.ChainCore.CanonicalJson
open Trackward.ChainCore.JsonGrammar
open Trackward.ChainCore.JsonNumerals
open Trackward.ChainCore.JsonParser
open Trackward.ChainCore.JsonTexts
open Trackward.ChainCore.JsonValue
open Trackward.Lib.KeyedLists
open Trackward.Lib.PrefixCodes
open Trackward.Lib.TextOrders

/-! ## The scheme -/

/-- A character of a string, with the escapes of the scheme. -/
def quoteSymbol (symbol : Char) : List Char :=
  if symbol.toNat < 0x20 then
    if symbol.toNat = 0x08 then ['\\', 'b']
    else if symbol.toNat = 0x09 then ['\\', 't']
    else if symbol.toNat = 0x0a then ['\\', 'n']
    else if symbol.toNat = 0x0c then ['\\', 'f']
    else if symbol.toNat = 0x0d then ['\\', 'r']
    else '\\' :: 'u' :: hex4 symbol.toNat
  else if symbol = '\\' then ['\\', '\\']
  else if symbol = '"' then ['\\', '"']
  else [symbol]

/-- A string between quotes. -/
def quote (text : String) : List Char :=
  '"' :: (text.toList.map quoteSymbol).flatten ++ ['"']

/-- A number, if it is an integer that a double represents. -/
def numberText : Number → Option (List Char)
  | .integer value _ _ =>
      if value.natAbs < 2 ^ 53 then some (decimal value) else none
  | .float _ => none

mutual

/-- The text of a value whose members are in order. -/
def serialize : Value → Option (List Char)
  | .null => some ['n', 'u', 'l', 'l']
  | .bool true => some ['t', 'r', 'u', 'e']
  | .bool false => some ['f', 'a', 'l', 's', 'e']
  | .number number => numberText number
  | .string text => some (quote text)
  | .array items =>
      match serializeItems items with
      | some words => some ('[' :: separated ',' words ++ [']'])
      | none => none
  | .object members =>
      match serializeMembers members with
      | some words => some ('{' :: separated ',' words ++ ['}'])
      | none => none

/-- The texts of the items of an array. -/
def serializeItems : List Value → Option (List (List Char))
  | [] => some []
  | item :: items =>
      match serialize item, serializeItems items with
      | some word, some words => some (word :: words)
      | _, _ => none

/-- The texts of the members of an object. -/
def serializeMembers : List (String × Value) → Option (List (List Char))
  | [] => some []
  | (key, value) :: members =>
      match serialize value, serializeMembers members with
      | some word, some words => some ((quote key ++ ':' :: word) :: words)
      | _, _ => none

end

/-- The text of the scheme: members sorted by UTF-16 units, then serialised. -/
def canonicalize (value : Value) : Option String :=
  (serialize (arrange utf16Units value)).map String.ofList

/-- The value is no number, or an integer that a double represents. -/
def isSafe : Value → Bool
  | .number (.integer value _ _) => decide (value.natAbs < 2 ^ 53)
  | .number (.float _) => false
  | _ => true

/-- All numbers are integers of absolute value below 2^53. -/
def Safe (value : Value) : Prop :=
  ∀ inner ∈ value.nested, isSafe inner = true

instance (value : Value) : Decidable (Safe value) :=
  inferInstanceAs (Decidable (∀ inner ∈ value.nested, isSafe inner = true))

/-- No two keys of the object are ordered differently, if it is one. -/
def keysAgree : Value → Prop
  | .object members =>
      ∀ first ∈ members, ∀ second ∈ members,
        ¬ Misordered first.1 second.1
  | _ => True

/-- No two keys of any object are ordered differently. -/
def KeysAgree (value : Value) : Prop :=
  ∀ inner ∈ value.nested, keysAgree inner

/-! ## Items and members -/

@[simp]
theorem safe_array_iff {items : List Value} :
    Safe (.array items) ↔ ∀ item ∈ items, Safe item := by
  simp [Safe, Value.forall_nested_array, isSafe]

@[simp]
theorem safe_object_iff {members : List Member} :
    Safe (.object members) ↔ ∀ member ∈ members, Safe member.2 := by
  simp [Safe, Value.forall_nested_object, isSafe]

@[simp]
theorem keysAgree_array_iff {items : List Value} :
    KeysAgree (.array items) ↔ ∀ item ∈ items, KeysAgree item := by
  simp [KeysAgree, Value.forall_nested_array, keysAgree]

@[simp]
theorem keysAgree_object_iff {members : List Member} :
    KeysAgree (.object members) ↔
      (∀ first ∈ members, ∀ second ∈ members,
        ¬ Misordered first.1 second.1) ∧
        ∀ member ∈ members, KeysAgree member.2 := by
  rw [KeysAgree, Value.forall_nested_object]
  rfl

theorem serializeItems_eq_some_iff {items : List Value}
    {words : List (List Char)} :
    serializeItems items = some words ↔
      List.Forall₂ (fun item word => serialize item = some word) items
        words := by
  induction items generalizing words with
  | nil =>
      rw [serializeItems, List.forall₂_nil_left_iff, Option.some.injEq]
      exact eq_comm
  | cons item items induction =>
      rw [serializeItems]
      constructor
      · intro written
        split at written
        case h_1 word words' here later =>
            cases written
            exact .cons here (induction.mp later)
        case h_2 => cases written
      · intro written
        cases written with
        | cons here later =>
            simp only [here, induction.mpr later]

/-- The text of one member. -/
def memberWord (member : Member) (word : List Char) : Prop :=
  ∃ valueWord, serialize member.2 = some valueWord ∧
    word = quote member.1 ++ ':' :: valueWord

theorem serializeMembers_eq_some_iff {members : List Member}
    {words : List (List Char)} :
    serializeMembers members = some words ↔
      List.Forall₂ memberWord members words := by
  induction members generalizing words with
  | nil =>
      rw [serializeMembers, List.forall₂_nil_left_iff, Option.some.injEq]
      exact eq_comm
  | cons member members induction =>
      rcases member with ⟨key, value⟩
      rw [serializeMembers]
      constructor
      · intro written
        split at written
        case h_1 word words' here later =>
            cases written
            exact .cons ⟨word, here, rfl⟩ (induction.mp later)
        case h_2 => cases written
      · intro written
        cases written with
        | cons here later =>
            rcases here with ⟨valueWord, inner, rfl⟩
            simp only [inner, induction.mpr later]

/-! ## The escapes agree -/

theorem quoteSymbol_control (code : Nat) (control : code < 32) :
    quoteSymbol (Char.ofNat code) = escape (Char.ofNat code) := by
  interval_cases code <;> rfl

/-- The writer escapes what the scheme escapes, in the same way. -/
theorem quoteSymbol_eq_escape (symbol : Char) :
    quoteSymbol symbol = escape symbol := by
  by_cases control : symbol.toNat < 32
  · have same := quoteSymbol_control symbol.toNat control
    rwa [Char.ofNat_toNat] at same
  · by_cases quote : symbol = '"'
    · subst quote
      rfl
    · by_cases backslash : symbol = '\\'
      · subst backslash
        rfl
      · rw [quoteSymbol, if_neg control, if_neg backslash, if_neg quote,
          escape_plain control quote backslash]

theorem quote_eq_writeString (text : String) :
    quote text = writeString text := by
  have symbols : quoteSymbol = escape := funext quoteSymbol_eq_escape
  rw [quote, symbols]
  rfl

/-! ## Texts of the scheme are JSON texts -/

/-- A serialised value is a text without blanks of the value. -/
theorem valueText_serialize
    (float : List Char → Option UInt64) {value : Value} {word : List Char}
    (written : serialize value = some word) :
    ValueText NoBlanks (numberOf float) value word := by
  induction value using Value.nesting_induction generalizing word with
  | null =>
      cases written
      exact .null
  | bool value =>
      cases value <;> cases written
      · exact .false
      · exact .true
  | number number =>
      cases number with
      | float bits => cases written
      | integer value low high =>
          rw [serialize, numberText] at written
          split at written
          case isFalse => cases written
          case isTrue =>
              cases written
              exact
                .number (numberText_decimal value)
                  (numberOf_decimal float value low high)
  | string text =>
      rw [serialize, quote_eq_writeString] at written
      cases written
      exact .string (stringText_writeString text)
  | array items induction =>
      rw [serialize] at written
      split at written
      case h_2 => cases written
      case h_1 words texts =>
          cases written
          apply valueText_array
          apply forall₂_of_mem (serializeItems_eq_some_iff.mp texts)
          intro item listed word here
          exact induction item listed here
  | object members induction =>
      rw [serialize] at written
      split at written
      case h_2 => cases written
      case h_1 words texts =>
          cases written
          apply valueText_object
          apply forall₂_of_mem (serializeMembers_eq_some_iff.mp texts)
          rintro ⟨key, inner⟩ listed word ⟨valueWord, here, rfl⟩
          rw [quote_eq_writeString]
          exact memberText_writeString (induction (key, inner) listed here)

/-- The writer writes what the scheme writes for the members in byte order. -/
theorem serialize_arrange {value : Value} {word : List Char}
    (safe : Safe value) (written : writeValue value = .ok word) :
    serialize (arrange byKey value) = some word := by
  induction value using Value.nesting_induction generalizing word with
  | null =>
      cases written
      rfl
  | bool value =>
      cases value <;> cases written <;> rfl
  | number number =>
      cases number with
      | float bits => cases written
      | integer value low high =>
          have small : value.natAbs < 2 ^ 53 := by
            simpa [Safe, Value.nested, isSafe] using safe
          rw [writeValue_integer] at written
          cases written
          rw [arrange, serialize, numberText, if_pos small]
  | string text =>
      cases written
      rw [arrange, serialize, quote_eq_writeString]
  | array items induction =>
      rcases writeValue_array_eq_ok written with ⟨words, texts, rfl⟩
      have inside :
          serializeItems (items.map (arrange byKey)) = some words := by
        rw [serializeItems_eq_some_iff, List.forall₂_map_left_iff]
        apply forall₂_of_mem texts
        intro item listed word here
        exact induction item listed (safe_array_iff.mp safe item listed) here
      rw [arrange_array, serialize, inside]
  | object members induction =>
      rcases writeValue_object_eq_ok written with ⟨words, texts, rfl⟩
      have inside :
          serializeMembers
              ((sortByKey Prod.fst members).map (arrangeMember byKey)) =
            some words := by
        rw [serializeMembers_eq_some_iff, List.forall₂_map_left_iff]
        apply forall₂_of_mem texts
        intro member sorted word here
        have listed := mem_sortByKey.mp sorted
        rcases memberText_eq_ok here with ⟨valueWord, inner, rfl⟩
        have innerSafe := safe_object_iff.mp safe member listed
        exact
          ⟨valueWord, induction member listed innerSafe inner,
            by rw [quote_eq_writeString]; rfl⟩
      rw [arrange_object, serialize]
      simp only [byKey] at inside ⊢
      rw [inside]

/-! ## The two orders -/

/-- Sorting by either order gives one list when the orders agree. -/
theorem sort_eq_of_agree {members : List Member}
    (agree :
      ∀ first ∈ members, ∀ second ∈ members,
        ¬ Misordered first.1 second.1) :
    sortByKey (fun member => utf16Units member.1) members =
      sortByKey Prod.fst members := by
  apply sortByKey_congr
  intro first listed second listed'
  rw [← not_lt, ← not_lt,
    utf16Units_lt_iff (agree second listed' first listed)]

/-- Keys that both orders list in the same way agree. -/
theorem agree_of_sort_eq {members : List Member}
    (same :
      (sortByKey (fun member => utf16Units member.1) members).map Prod.fst =
        (sortByKey Prod.fst members).map Prod.fst) :
    ∀ first ∈ members, ∀ second ∈ members,
      ¬ Misordered first.1 second.1 := by
  have byBytes :
      ((sortByKey Prod.fst members).map Prod.fst).Pairwise (· ≤ ·) :=
    List.pairwise_map.mpr (sortByKey_pairwise Prod.fst members)
  have byUnits :
      ((sortByKey Prod.fst members).map Prod.fst).Pairwise
        fun first second => utf16Units first ≤ utf16Units second := by
    rw [← same]
    exact
      List.pairwise_map.mpr
        (sortByKey_pairwise (fun member : Member => utf16Units member.1)
          members)
  have kept :
      ((sortByKey Prod.fst members).map Prod.fst).Pairwise
        fun first second => ¬ Misordered first second :=
    (byBytes.and byUnits).imp fun both => not_misordered_of_le both.1 both.2
  have listed :
      ∀ member ∈ members,
        member.1 ∈ (sortByKey Prod.fst members).map Prod.fst :=
    fun member found => List.mem_map_of_mem (mem_sortByKey.mpr found)
  intro first found second found'
  exact
    List.Pairwise.forall_of_forall_of_flip
      (fun key _ => not_misordered_self key) kept
      (kept.imp fun agree other => agree other.symm)
      (listed first found) (listed second found')

/-- The order of keys in canonical texts is the order of their bytes. -/
theorem sort_utf8Units (members : List Member) :
    sortByKey (fun member => utf8Units member.1) members =
      sortByKey Prod.fst members := by
  apply sortByKey_congr
  intro first _ second _
  rw [← not_lt, ← not_lt, utf8Units_lt_iff]

/-- The two orders give one value exactly when they agree on all keys. -/
theorem arrange_eq_iff {value : Value} (formed : value.WellFormed) :
    arrange utf16Units value = arrange byKey value ↔ KeysAgree value := by
  induction value using Value.nesting_induction with
  | array items induction =>
      rw [Value.wellFormed_array_iff] at formed
      rw [arrange_array, arrange_array, keysAgree_array_iff,
        Value.array.injEq, List.map_inj_left]
      constructor
      · intro same item listed
        exact (induction item listed (formed item listed)).mp (same item listed)
      · intro agree item listed
        exact
          (induction item listed (formed item listed)).mpr (agree item listed)
  | object members induction =>
      rw [Value.wellFormed_object_iff] at formed
      rw [arrange_object, arrange_object, keysAgree_object_iff,
        Value.object.injEq]
      constructor
      · intro same
        have keys := congrArg (List.map Prod.fst) same
        simp only [List.map_map] at keys
        refine ⟨agree_of_sort_eq keys, ?_⟩
        intro member listed
        apply (induction member listed (formed.2 member listed)).mp
        have present :
            arrangeMember byKey member ∈
              (sortByKey (fun member => utf16Units member.1) members).map
                (arrangeMember utf16Units) := by
          rw [same]
          exact List.mem_map_of_mem (mem_sortByKey.mpr listed)
        rcases List.mem_map.mp present with ⟨other, sorted, equal⟩
        rcases Prod.mk.inj equal with ⟨sameKey, sameInner⟩
        rwa [List.inj_on_of_nodup_map formed.1 (mem_sortByKey.mp sorted)
          listed sameKey] at sameInner
      · rintro ⟨agree, inside⟩
        rw [sort_eq_of_agree agree]
        apply List.map_congr_left
        intro member sorted
        have listed := mem_sortByKey.mp sorted
        have same :=
          (induction member listed (formed.2 member listed)).mpr
            (inside member listed)
        rw [arrangeMember, arrangeMember, same]
  | _ => simp [arrange, KeysAgree, Value.nested, keysAgree]

/-- A safe value has no floats. -/
theorem floatFree_of_safe {value : Value} (safe : Safe value) :
    value.FloatFree := by
  intro inner occurs
  have here := safe inner occurs
  cases inner with
  | number number =>
      cases number with
      | integer => rfl
      | float bits => cases here
  | _ => rfl

/-- An object with a private-use key and an emoji. -/
def swappedKeys : Json where
  value := .object [("\ue000", .null), ("😀", .bool true)]
  wellFormed := by decide

/-- An object with nested ones, an emoji among letters. -/
def agreeingKeys : Json where
  value :=
    .object
      [("z", .array [.number (.integer 7 (by decide) (by decide))]),
        ("é", .object [("😀", .null), ("a", .string "/")])]
  wellFormed := by decide

/--
Canonical JSON is the text of the scheme exactly when no object of the value has
two keys that first differ in a character above U+FFFF against one from U+E000
to U+FFFF.
-/
theorem canonical_text_is_jcs_iff (json : Json) (safe : Safe json.value) :
    (∃ text, toCanonicalString json.value = .ok text ∧
      canonicalize json.value = some text) ↔
      KeysAgree json.value := by
  rcases (writeValue_isOk_iff json.value).mpr (floatFree_of_safe safe) with
    ⟨word, written⟩
  have canonical :
      toCanonicalString json.value = .ok (String.ofList word) := by
    rw [toCanonicalString, written]
    rfl
  have byBytes := serialize_arrange safe written
  rw [← arrange_eq_iff json.wellFormed]
  constructor
  · rintro ⟨text, first, second⟩
    rw [canonical, Except.ok.injEq] at first
    subst first
    rcases Option.map_eq_some_iff.mp second with ⟨word', byUnits, same⟩
    rw [String.ofList_injective same] at byUnits
    have text :
        ∀ value, serialize value = some word →
          JsonText Blanks (numberOf fun _ => none) value word := by
      intro value here
      apply jsonText_of_noBlanks
      exact jsonText_of_valueText (valueText_serialize _ here)
    exact jsonText_unique (text _ byUnits) (text _ byBytes)
  · intro same
    refine ⟨_, canonical, ?_⟩
    rw [canonicalize, same, byBytes]
    rfl

theorem canonical_text_is_jcs_iff_agreeingKeys :
    (∃ text, toCanonicalString agreeingKeys.value = .ok text ∧
      canonicalize agreeingKeys.value = some text) ↔
      KeysAgree agreeingKeys.value :=
  canonical_text_is_jcs_iff agreeingKeys (by decide)

/-- The two texts list the keys the other way round. -/
theorem canonical_text_is_not_jcs :
    Safe swappedKeys.value ∧
      ¬ ∃ text, toCanonicalString swappedKeys.value = .ok text ∧
        canonicalize swappedKeys.value = some text := by
  constructor
  · decide
  · rintro ⟨text, canonical, scheme⟩
    have written :
        toCanonicalString swappedKeys.value =
          .ok "\x7b\"\ue000\":null,\"😀\":true\x7d" := by
      decide +kernel
    have expected :
        canonicalize swappedKeys.value =
          some "\x7b\"😀\":true,\"\ue000\":null\x7d" := by
      decide +kernel
    rw [written, Except.ok.injEq] at canonical
    rw [expected, Option.some.injEq, ← canonical] at scheme
    exact absurd scheme (by decide)

end Trackward.ChainCore.Jcs
