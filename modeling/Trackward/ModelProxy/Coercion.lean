import Trackward.ModelProxy.PythonTexts

/-!
# Coerced bodies in the ledger

A body goes through `to_safe` and `json.dumps`, is read by `serde_json` and
ends up in the canonical writer, which panics on floats.  The way succeeds
exactly when every surrogate of a string is half of a pair, lists and
dictionaries nest 127 deep at most, and the integers fit 64 bits.

A dictionary may have two keys that spell the same text, one with a surrogate
pair in place of a character.  The entry that comes last is the one that counts.
-/

namespace Trackward.ModelProxy.Coercion

open Trackward.ChainCore.CanonicalJson
open Trackward.ChainCore.JsonGrammar
open Trackward.ChainCore.JsonNumerals
open Trackward.ChainCore.JsonParser
open Trackward.ChainCore.JsonReader
open Trackward.ChainCore.JsonSoundness
open Trackward.ChainCore.JsonTexts
open Trackward.ChainCore.JsonValue
open Trackward.ChainCore.SerdeJson
open Trackward.Lib.KeyedLists
open Trackward.Lib.PrefixCodes
open Trackward.ModelProxy.PythonTexts
open Trackward.ModelProxy.PythonValue
open Trackward.ModelProxy.ToSafe

/-! ## The condition -/

mutual

/-- Every surrogate of every string is half of a pair. -/
def paired : PyValue → Bool
  | .none => true
  | .bool _ => true
  | .int _ => true
  | .float _ => true
  | .str text => (spelled text).isSome
  | .list items => pairedItems items
  | .dict entries => pairedEntries entries

/-- Every surrogate in the items is half of a pair. -/
def pairedItems : List PyValue → Bool
  | [] => true
  | item :: items => paired item && pairedItems items

/-- Every surrogate in the keys and values is half of a pair. -/
def pairedEntries : List (PyStr × PyValue) → Bool
  | [] => true
  | (key, value) :: entries =>
      (spelled key).isSome && paired value && pairedEntries entries

end

mutual

/-- How deep lists and dictionaries nest. -/
def nesting : PyValue → Nat
  | .none => 0
  | .bool _ => 0
  | .int _ => 0
  | .float _ => 0
  | .str _ => 0
  | .list items => nestingItems items + 1
  | .dict entries => nestingEntries entries + 1

/-- How deep the deepest item nests. -/
def nestingItems : List PyValue → Nat
  | [] => 0
  | item :: items => max (nesting item) (nestingItems items)

/-- How deep the deepest value of an entry nests. -/
def nestingEntries : List (PyStr × PyValue) → Nat
  | [] => 0
  | (_, value) :: entries => max (nesting value) (nestingEntries entries)

end

/-- The integer fits 64 bits, signed or unsigned. -/
def fits64 (value : Int) : Bool :=
  decide (-2 ^ 63 ≤ value) && decide (value < 2 ^ 64)

mutual

/--
Every integer and every whole float fits 64 bits, but for the entries that a
later entry replaces.
-/
def ranged : PyValue → Bool
  | .none => true
  | .bool _ => true
  | .int value => fits64 value
  | .float value =>
      match value.toInt with
      | some whole => fits64 whole
      | none => true
  | .str _ => true
  | .list items => rangedItems items
  | .dict entries =>
      (keepLast Prod.fst (rangedEntries entries)).all Prod.snd

/-- Every integer in the items fits 64 bits. -/
def rangedItems : List PyValue → Bool
  | [] => true
  | item :: items => ranged item && rangedItems items

/-- What each entry spells, and whether its integers fit 64 bits. -/
def rangedEntries :
    List (PyStr × PyValue) → List (Option (List Char) × Bool)
  | [] => []
  | (key, value) :: entries =>
      (spelled key, ranged value) :: rangedEntries entries

end

theorem pairedItems_eq (items : List PyValue) :
    pairedItems items = true ↔ ∀ item ∈ items, paired item = true := by
  induction items with
  | nil => simp [pairedItems]
  | cons item items induction => simp [pairedItems, induction]

theorem pairedEntries_eq (entries : List Entry) :
    pairedEntries entries = true ↔
      ∀ entry ∈ entries,
        (spelled entry.1).isSome = true ∧ paired entry.2 = true := by
  induction entries with
  | nil => simp [pairedEntries]
  | cons entry entries induction =>
      rcases entry with ⟨key, value⟩
      simp only [pairedEntries, Bool.and_eq_true, induction, List.mem_cons,
        forall_eq_or_imp]

theorem rangedItems_eq (items : List PyValue) :
    rangedItems items = true ↔ ∀ item ∈ items, ranged item = true := by
  induction items with
  | nil => simp [rangedItems]
  | cons item items induction => simp [rangedItems, induction]

/-- What an entry spells, and whether its integers fit 64 bits. -/
def rangedEntry (entry : Entry) : Option (List Char) × Bool :=
  (spelled entry.1, ranged entry.2)

theorem rangedEntries_eq (entries : List Entry) :
    rangedEntries entries = entries.map rangedEntry := by
  induction entries with
  | nil => rfl
  | cons entry entries induction =>
      rcases entry with ⟨key, value⟩
      simp [rangedEntries, rangedEntry, induction]

/-! ## Integers -/

/-- Every integer is represented, if only by a float. -/
def Represents (float : List Char → Option UInt64) : Prop :=
  ∀ value : Int, (float (decimal value)).isSome = true

/-- An integer beyond 64 bits is read as a float. -/
theorem numberOf_decimal_of_not_fits
    {float : List Char → Option UInt64} (represents : Represents float)
    {value : Int} (beyond : fits64 value = false) :
    ∃ bits, numberOf float (decimal value) = some (.float bits) := by
  have ends : Stops IsDigit [] := by
    intro symbol tail absurdity
    cases absurdity
  have read := readInteger_decimal value ends
  rw [List.append_nil] at read
  have outside :
      ¬ (-2 ^ 63 ≤ value ∧ value < 2 ^ 64 ∧ decimal value ≠ ['-', '0']) := by
    simp only [fits64, Bool.and_eq_false_iff, decide_eq_false_iff_not]
      at beyond
    omega
  rcases Option.isSome_iff_exists.mp (represents value) with ⟨bits, known⟩
  refine ⟨bits, ?_⟩
  simp only [numberOf, read, dif_neg outside, known, Option.map_some]

/-- What an integer is read as. -/
theorem parsed_int
    {float : List Char → Option UInt64} (represents : Represents float)
    (value : Int) :
    ∃ number, parsed (numberOf float) (.int value) = some (.number number) ∧
      ((Value.number number).FloatFree ↔ fits64 value = true) := by
  cases fits : fits64 value with
  | true =>
      rw [fits64, Bool.and_eq_true, decide_eq_true_eq, decide_eq_true_eq]
        at fits
      refine ⟨.integer value fits.1 fits.2, ?_, ?_⟩
      · rw [parsed, numberOf_decimal float value fits.1 fits.2]
        rfl
      · simp [Value.FloatFree, Value.nested, Value.isInteger]
  | false =>
      rcases numberOf_decimal_of_not_fits represents fits with ⟨bits, known⟩
      refine ⟨.float bits, ?_, ?_⟩
      · rw [parsed, known]
        rfl
      · simp [Value.FloatFree, Value.nested, Value.isInteger]

/-! ## Strings -/

theorem spelled_cons {point : CodePoint} (rest : PyStr)
    (notHigh : isHigh point.val = false) (notLow : isLow point.val = false) :
    spelled (point :: rest) =
      (spelled rest).map fun symbols => Char.ofNat point.val :: symbols := by
  cases rest with
  | nil => simp [spelled, notHigh, notLow]
  | cons next rest => simp [spelled, notHigh, notLow]

/-- The code points of a text spell the text. -/
theorem spelled_ofString (text : String) :
    spelled (ofString text) = some text.toList := by
  rw [ofString]
  induction text.toList with
  | nil => rfl
  | cons symbol symbols induction =>
      have outside := not_surrogate symbol
      rw [List.map_cons, spelled_cons _ outside.1 outside.2, induction,
        Char.ofNat_toNat]
      rfl

/-! ## Lists of results -/

theorem forall₂_of_mapM {ι ω : Type} {read : ι → Option ω} {items : List ι}
    {outputs : List ω} (results : items.mapM read = some outputs) :
    List.Forall₂ (fun item output => read item = some output) items
      outputs := by
  induction items generalizing outputs with
  | nil =>
      cases results
      exact .nil
  | cons item items induction =>
      rw [List.mapM_cons] at results
      cases first : read item with
      | none => simp [first] at results
      | some output =>
          cases others : items.mapM read with
          | none => simp [first, others] at results
          | some rest =>
              simp only [first, others, Option.bind_eq_bind, Option.bind_some,
                Option.pure_def, Option.some.injEq] at results
              subst results
              exact .cons first (induction others)

theorem isSome_mapM {ι ω : Type} {read : ι → Option ω} {items : List ι} :
    (items.mapM read).isSome = true ↔
      ∀ item ∈ items, (read item).isSome = true := by
  induction items with
  | nil => simp
  | cons item items induction =>
      rw [List.mapM_cons, List.forall_mem_cons, ← induction]
      cases read item with
      | none => simp
      | some first => cases items.mapM read <;> simp

/-- What holds of related entries holds of all of both lists. -/
theorem forall_iff_of_forall₂
    {α β : Type} {same : α → β → Prop} {first : α → Prop}
    {second : β → Prop} {entries : List α} {entries' : List β}
    (related : List.Forall₂ same entries entries')
    (agree :
      ∀ entry ∈ entries, ∀ entry', same entry entry' →
        (first entry ↔ second entry')) :
    (∀ entry ∈ entries, first entry) ↔
      ∀ entry' ∈ entries', second entry' := by
  induction related with
  | nil => simp
  | cons head _ induction =>
      rw [List.forall_mem_cons, List.forall_mem_cons,
        agree _ List.mem_cons_self _ head,
        induction fun entry member =>
          agree entry (List.mem_cons_of_mem _ member)]

/-- A member has the key that the entry spells, and floats if that has. -/
def SameEntry (entry : Option (List Char) × Bool) (member : Member) : Prop :=
  entry.1 = some member.1.toList ∧
    (entry.2 = true ↔ member.2.FloatFree)

theorem sameKeys_sameEntry : SameKeys SameEntry Prod.fst Prod.fst := by
  intro first second first' second' same same'
  rw [same.1, same'.1, Option.some.injEq]
  exact String.toList_inj

/-! ## The three parts of the condition -/

section Condition

variable {printing : Printing} {float : List Char → Option UInt64}

/-- The text is a JSON text exactly when the surrogates are paired. -/
theorem isSome_parsed_iff (represents : Represents float) (value : PyValue) :
    (parsed (numberOf float) (toSafe printing value)).isSome = true ↔
      paired value = true := by
  induction value using PyValue.nesting_induction with
  | none => simp [toSafe, parsed, paired]
  | bool value => simp [toSafe, parsed, paired]
  | int value =>
      rcases parsed_int represents value with ⟨number, read, _⟩
      simp [toSafe, read, paired]
  | float value =>
      rcases toSafe_float printing value with ⟨whole, _, same⟩ | ⟨_, same⟩
      · rcases parsed_int represents whole with ⟨number, read, _⟩
        simp [same, read, paired]
      · simp [same, parsed, spelled_ofString, paired]
  | str text => simp [toSafe, parsed, paired]
  | list items induction =>
      rw [parsed_list, Option.isSome_map, isSome_mapM, paired, pairedItems_eq]
      exact forall₂_congr induction
  | dict entries induction =>
      rw [parsed_dict, Option.isSome_map, isSome_mapM, paired,
        pairedEntries_eq]
      apply forall₂_congr
      intro entry listed
      rw [← induction entry listed, parsedEntry, toSafeEntry]
      cases spelled entry.1 with
      | none => simp
      | some symbols => simp

/-- The value that is read nests as deep as the value that is written. -/
theorem depth_parsed {number : List Char → Option Number} {value : PyValue}
    {raw : Value} (read : parsed number (toSafe printing value) = some raw) :
    depth raw = nesting value := by
  induction value using PyValue.nesting_induction generalizing raw with
  | none =>
      cases read
      rfl
  | bool value =>
      cases read
      rfl
  | int value =>
      rcases Option.map_eq_some_iff.mp read with ⟨number, _, rfl⟩
      rfl
  | float value =>
      rcases toSafe_float printing value with ⟨whole, _, same⟩ | ⟨_, same⟩
      · rw [same] at read
        rcases Option.map_eq_some_iff.mp read with ⟨number, _, rfl⟩
        rfl
      · rw [same] at read
        rcases Option.map_eq_some_iff.mp read with ⟨symbols, _, rfl⟩
        rfl
  | str text =>
      rcases Option.map_eq_some_iff.mp read with ⟨symbols, _, rfl⟩
      rfl
  | list items induction =>
      rw [parsed_list] at read
      rcases Option.map_eq_some_iff.mp read with ⟨raws, reads, rfl⟩
      have each := forall₂_of_mapM reads
      rw [depth, nesting, Nat.add_right_cancel_iff]
      clear reads read
      induction each with
      | nil => rfl
      | cons first _ later =>
          rw [depthItems, nestingItems, induction _ List.mem_cons_self first,
            later fun item member =>
              induction item (List.mem_cons_of_mem _ member)]
  | dict entries induction =>
      rw [parsed_dict] at read
      rcases Option.map_eq_some_iff.mp read with ⟨raws, reads, rfl⟩
      have each := forall₂_of_mapM reads
      rw [depth, nesting, Nat.add_right_cancel_iff]
      clear reads read
      induction each with
      | nil => rfl
      | @cons entry member _ _ first _ later =>
          rcases Option.bind_eq_some_iff.mp first with ⟨symbols, _, rest⟩
          rcases Option.map_eq_some_iff.mp rest with ⟨inner, innerRead, rfl⟩
          rcases entry with ⟨key, value⟩
          rw [depthMembers, nestingEntries,
            induction _ List.mem_cons_self innerRead,
            later fun item member =>
              induction item (List.mem_cons_of_mem _ member)]

/-- What is read has no floats exactly when the integers fit. -/
theorem floatFree_iff_ranged (represents : Represents float)
    {value : PyValue} {raw : Value}
    (read :
      parsed (numberOf float) (toSafe printing value) = some raw) :
    (lastWins raw).FloatFree ↔ ranged value = true := by
  induction value using PyValue.nesting_induction generalizing raw with
  | none =>
      cases read
      simp [lastWins, ranged, Value.FloatFree, Value.nested, Value.isInteger]
  | bool value =>
      cases read
      simp [lastWins, ranged, Value.FloatFree, Value.nested, Value.isInteger]
  | int value =>
      rcases parsed_int represents value with ⟨number, same, fits⟩
      rw [toSafe, same] at read
      cases read
      rw [lastWins, fits, ranged]
  | float value =>
      rcases toSafe_float printing value with ⟨whole, found, same⟩ |
        ⟨found, same⟩
      · rcases parsed_int represents whole with ⟨number, same', fits⟩
        rw [same, same'] at read
        cases read
        rw [lastWins, fits, ranged, found]
      · rw [same] at read
        rcases Option.map_eq_some_iff.mp read with ⟨symbols, _, rfl⟩
        rw [ranged, found]
        simp [lastWins, Value.FloatFree, Value.nested, Value.isInteger]
  | str text =>
      rcases Option.map_eq_some_iff.mp read with ⟨symbols, _, rfl⟩
      simp [lastWins, ranged, Value.FloatFree, Value.nested, Value.isInteger]
  | list items induction =>
      rw [parsed_list] at read
      rcases Option.map_eq_some_iff.mp read with ⟨raws, reads, rfl⟩
      have each := forall₂_of_mapM reads
      rw [lastWins_array, Value.floatFree_array_iff, ranged, rangedItems_eq,
        List.forall_mem_map]
      apply Iff.symm
      apply forall_iff_of_forall₂ each
      intro item listed raw first
      exact (induction item listed first).symm
  | dict entries induction =>
      rw [parsed_dict] at read
      rcases Option.map_eq_some_iff.mp read with ⟨raws, reads, rfl⟩
      have each :
          List.Forall₂ SameEntry (entries.map rangedEntry)
            (raws.map lastWinsMember) := by
        rw [List.forall₂_map_left_iff, List.forall₂_map_right_iff]
        apply forall₂_of_mem (forall₂_of_mapM reads)
        intro entry listed member first
        rcases Option.bind_eq_some_iff.mp first with ⟨symbols, key, rest⟩
        rcases Option.map_eq_some_iff.mp rest with ⟨inner, innerRead, rfl⟩
        constructor
        · rw [lastWinsMember, String.toList_ofList]
          exact key
        · exact (induction entry listed innerRead).symm
      rw [lastWins_object, Value.floatFree_object_iff, ranged,
        rangedEntries_eq, List.all_eq_true]
      apply Iff.symm
      apply forall_iff_of_forall₂ (forall₂_keepLast sameKeys_sameEntry each)
      intro entry _ member both
      exact both.2

end Condition

/-! ## The way to the ledger -/

/-- The text is read as a value that the canonical writer writes. -/
def Accepted (parse : String → Option Json) (text : List Char) : Prop :=
  ∃ json written, parse (String.ofList text) = some json ∧
    toCanonicalString json.value = .ok written

/-- Python's floats, printed without their digits. -/
def plainPrinting : Printing where
  str := fun value =>
    match value with
    | .finite _ => "0.5"
    | .infinite negative => if negative then "-inf" else "inf"
    | .nan => "nan"
  json := fun value =>
    match value with
    | .finite _ => ['0', '.', '5']
    | .infinite _ => ['I', 'n', 'f', 'i', 'n', 'i', 't', 'y']
    | .nan => ['N', 'a', 'N']

/-- Every numeral beyond the integers is taken for the float 1e20. -/
def someFloat (_ : List Char) : Option UInt64 :=
  some 0x4415af1d78b58c40

theorem represents_someFloat : Represents someFloat :=
  fun _ => rfl

/-- The float 1e20. -/
def hundredTrillionMillion : PyFloat :=
  .finite
    ⟨false, 95367431640625, 20, by decide, by decide, by decide⟩

/-- A body with an emoji, an escape, a half and a whole float. -/
def chatBody : PyValue :=
  .dict
    [(ofString "content", .list [.str (ofString "a\n😀"), .none]),
      (ofString "temperature",
        .float (.finite ⟨false, 1, -1, by decide, by decide, by decide⟩)),
      (ofString "n",
        .float (.finite ⟨true, 6, -1, by decide, by decide, by decide⟩))]

/--
A coerced body is accepted, and coercing it again changes nothing, exactly when
its surrogates are paired, it nests 127 deep at most, and its integers fit.
-/
theorem coerced_accepted_iff
    (printing : Printing) (float : List Char → Option UInt64)
    (parse : String → Option Json) (represents : Represents float)
    (reads : Reads float parse) (value : PyValue) :
    (Accepted parse (dumps printing (toSafe printing value)) ∧
      toSafe printing (toSafe printing value) = toSafe printing value) ↔
      paired value = true ∧ nesting value ≤ recursionLimit ∧
        ranged value = true := by
  have text :=
    readText_dumps printing (numberOf float) value
  constructor
  · rintro ⟨⟨json, written, found, canonical⟩, _⟩
    rcases reads.refuses _ json found with ⟨raw, grammatical, shallow⟩
    rcases reads.accepts _ raw grammatical shallow with ⟨json', found', same⟩
    rw [String.toList_ofList, ← readText_eq_some_iff, text] at grammatical
    rw [found, Option.some.injEq] at found'
    subst found'
    have free := toCanonicalString_isOk_iff.mp ⟨written, canonical⟩
    rw [same] at free
    refine ⟨?_, ?_, ?_⟩
    · apply (isSome_parsed_iff represents value).mp
      rw [grammatical]
      rfl
    · rwa [← depth_parsed grammatical]
    · exact (floatFree_iff_ranged represents grammatical).mp free
  · rintro ⟨surrogates, shallow, fits⟩
    refine ⟨?_, toSafe_toSafe printing value⟩
    have some :
        (parsed (numberOf float) (toSafe printing value)).isSome = true :=
      (isSome_parsed_iff represents value).mpr surrogates
    rcases Option.isSome_iff_exists.mp some with ⟨raw, read⟩
    have grammatical :
        JsonText Blanks (numberOf float) raw
          (String.ofList
            (dumps printing (toSafe printing value))).toList := by
      rw [String.toList_ofList, ← readText_eq_some_iff, text, read]
    rw [← depth_parsed read] at shallow
    rcases reads.accepts _ raw grammatical shallow with ⟨json, found, same⟩
    rw [← floatFree_iff_ranged represents read, ← same] at fits
    rcases toCanonicalString_isOk_iff.mpr fits with ⟨written, canonical⟩
    exact ⟨json, written, found, canonical⟩

theorem coerced_accepted_iff_chatBody :
    (Accepted (fromStr someFloat)
        (dumps plainPrinting (toSafe plainPrinting chatBody)) ∧
      toSafe plainPrinting (toSafe plainPrinting chatBody) =
        toSafe plainPrinting chatBody) ↔
      paired chatBody = true ∧ nesting chatBody ≤ recursionLimit ∧
        ranged chatBody = true :=
  coerced_accepted_iff plainPrinting someFloat (fromStr someFloat)
    represents_someFloat (reads_fromStr someFloat) chatBody

/-- A whole float beyond 64 bits becomes an integer that is read as a float. -/
theorem large_float_not_accepted :
    ¬ (Accepted (fromStr someFloat)
          (dumps plainPrinting
            (toSafe plainPrinting (.float hundredTrillionMillion))) ∧
        toSafe plainPrinting
            (toSafe plainPrinting (.float hundredTrillionMillion)) =
          toSafe plainPrinting (.float hundredTrillionMillion)) := by
  rintro ⟨⟨json, written, found, canonical⟩, _⟩
  have value :
      (fromStr someFloat
          (String.ofList
            (dumps plainPrinting
              (toSafe plainPrinting (.float hundredTrillionMillion))))).map
          Json.value =
        some (.number (.float 0x4415af1d78b58c40)) := by
    rfl
  rw [found, Option.map_some, Option.some.injEq] at value
  rw [value] at canonical
  cases canonical

end Trackward.ModelProxy.Coercion
