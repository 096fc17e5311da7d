import Trackward.ChainCore.CanonicalJson
import Trackward.ChainCore.Chrono
import Trackward.Lib.Hexadecimal

/-!
# The row encoding

A row is encoded as a byte string: a magic prefix, the table name, the number
of fields and the fields in the order of their names, each with its name, a
type tag and its value.  Texts, JSON, timestamps and byte strings carry a
32-bit length, names a 16-bit length.

The main result is that an encoding identifies its row: two accepted rows have
the same bytes exactly when the tables are equal and the fields agree up to
order, where JSON is compared as JSON and timestamps down to the microsecond.
-/

namespace Trackward.ChainCore.Encode

open Trackward.Lib
open Trackward.Lib.KeyedLists
open Trackward.Lib.Octets
open Trackward.Lib.PrefixCodes
open Trackward.ChainCore.CanonicalJson
open Trackward.ChainCore.Chrono
open Trackward.ChainCore.JsonValue

/-- A 128-bit identifier. -/
abbrev Uuid := BitVec 128

/-- The bytes of an identifier. -/
def uuidBytes (id : Uuid) : Bytes :=
  bigEndian 16 id.toNat

/-- The text of an identifier: hex digits in groups of 8, 4, 4, 4 and 12. -/
def uuidText (id : Uuid) : String :=
  let hex := (Hexadecimal.encode (uuidBytes id)).toList
  let group := fun start length => (hex.drop start).take length
  String.ofList
    (group 0 8 ++ '-' :: group 8 4 ++ '-' :: group 12 4 ++
      '-' :: group 16 4 ++ '-' :: group 20 12)

/-- Magic prefix of the row encoding. -/
def rowDomain : Bytes :=
  utf8 "trackward-row-v1\x00"

/-! ## Fields -/

/-- A typed value of a row. -/
inductive CanonicalValue where
  | uuid (value : Uuid)
  | i64 (value : Int64)
  | str (value : String)
  | json (value : Json)
  | timestamp (value : DateTime)
  | bytes (value : Bytes)
  | null
  | bool (value : Bool)

/-- A named value of a row. -/
structure CanonicalField where
  name : String
  value : CanonicalValue

namespace CanonicalField

def uuid (name : String) (value : Uuid) : CanonicalField :=
  ⟨name, .uuid value⟩

def i64 (name : String) (value : Int64) : CanonicalField :=
  ⟨name, .i64 value⟩

def str (name : String) (value : String) : CanonicalField :=
  ⟨name, .str value⟩

def json (name : String) (value : Json) : CanonicalField :=
  ⟨name, .json value⟩

def timestamp (name : String) (value : DateTime) : CanonicalField :=
  ⟨name, .timestamp value⟩

def null (name : String) : CanonicalField :=
  ⟨name, .null⟩

/-- An absent value is a field of its own, distinct from no field. -/
def opt {α : Type} (field : String → α → CanonicalField)
    (name : String) : Option α → CanonicalField
  | some value => field name value
  | none => null name

def optUuid (name : String) (value : Option Uuid) : CanonicalField :=
  opt uuid name value

def optStr (name : String) (value : Option String) : CanonicalField :=
  opt str name value

def optI64 (name : String) (value : Option Int64) : CanonicalField :=
  opt i64 name value

@[simp]
theorem name_optUuid (name : String) (value : Option Uuid) :
    (optUuid name value).name = name := by
  cases value <;> rfl

@[simp]
theorem name_optStr (name : String) (value : Option String) :
    (optStr name value).name = name := by
  cases value <;> rfl

@[simp]
theorem name_optI64 (name : String) (value : Option Int64) :
    (optI64 name value).name = name := by
  cases value <;> rfl

end CanonicalField

/-! ## The encoder -/

/-- All characters are ASCII. -/
def isAscii (text : String) : Bool :=
  text.toList.all fun symbol => symbol.toNat < 128

/-- A value after its length in 32 bits. -/
def writeU32Prefixed (bytes : Bytes) : Except Panic Bytes :=
  if bytes.length ≤ 2 ^ 32 - 1 then .ok (lengthPrefixed 4 bytes)
  else .error .valueTooLong

/-- The type tag of a value, followed by the value. -/
def encodeValue (chrono : Formatter) : CanonicalValue → Except Panic Bytes
  | .uuid value => .ok (0x01 :: uuidBytes value)
  | .i64 value => .ok (0x02 :: bigEndian 8 value.toBitVec.toNat)
  | .str value => (0x03 :: ·) <$> writeU32Prefixed (utf8 value)
  | .json value => do
      let canon ← toCanonicalString value.value
      (0x04 :: ·) <$> writeU32Prefixed (utf8 canon)
  | .timestamp value =>
      (0x05 :: ·) <$>
        writeU32Prefixed (utf8 (chrono.toRfc3339Micros value))
  | .bytes value => (0x06 :: ·) <$> writeU32Prefixed value
  | .null => .ok [0x07]
  | .bool value => .ok [0x08, if value then 1 else 0]

/-- The name of a field followed by its value. -/
def encodeField (chrono : Formatter) (field : CanonicalField) :
    Except Panic Bytes :=
  if isAscii field.name then
    (lengthPrefixed 2 (utf8 field.name) ++ ·) <$>
      encodeValue chrono field.value
  else .error (.fieldNameNotAscii field.name)

/-- The first name that occurs twice in a row. -/
def duplicateName : List CanonicalField → Option String
  | first :: second :: fields =>
      if first.name = second.name then some first.name
      else duplicateName (second :: fields)
  | _ => none

/-- The bytes of a row of `table`. -/
def canonicalRowBytes
    (chrono : Formatter) (table : String) (fields : List CanonicalField) :
    Except Panic Bytes :=
  if !isAscii table then .error (.tableNotAscii table)
  else if 2 ^ 16 - 1 < (utf8 table).length then .error .tableTooLong
  else if 2 ^ 16 - 1 < fields.length then .error .tooManyFields
  else
    let sorted := sortByKey CanonicalField.name fields
    match duplicateName sorted with
    | some name => .error (.duplicateField name)
    | none => do
        let encoded ← writeAll (sorted.map (encodeField chrono))
        return rowDomain ++ lengthPrefixed 2 (utf8 table) ++
          bigEndian 2 sorted.length ++ encoded.flatten

/-! ## The same row -/

/-- Values that stand for the same content. -/
inductive SameValue : CanonicalValue → CanonicalValue → Prop where
  | uuid (value : Uuid) : SameValue (.uuid value) (.uuid value)
  | i64 (value : Int64) : SameValue (.i64 value) (.i64 value)
  | str (value : String) : SameValue (.str value) (.str value)
  | json {first second : Json} (same : first.Same second) :
      SameValue (.json first) (.json second)
  | timestamp {first second : DateTime} (same : first.SameMicros second) :
      SameValue (.timestamp first) (.timestamp second)
  | bytes (value : Bytes) : SameValue (.bytes value) (.bytes value)
  | null : SameValue .null .null
  | bool (value : Bool) : SameValue (.bool value) (.bool value)

/-- Fields with the same name and the same content. -/
def SameField (first second : CanonicalField) : Prop :=
  first.name = second.name ∧ SameValue first.value second.value

theorem SameField.refl (field : CanonicalField) : SameField field field := by
  refine ⟨rfl, ?_⟩
  cases field.value with
  | uuid value => exact .uuid value
  | i64 value => exact .i64 value
  | str value => exact .str value
  | json value => exact .json (.refl value)
  | timestamp value => exact .timestamp (.refl value)
  | bytes value => exact .bytes value
  | null => exact .null
  | bool value => exact .bool value

/-! ## What the encoder accepts -/

/-- The values that can be encoded. -/
def CanonicalValue.Fits : CanonicalValue → Prop
  | .str value => (utf8 value).length < 2 ^ 32
  | .json value =>
      value.FloatFree ∧
        ∀ canon, toCanonicalString value.value = .ok canon →
          (utf8 canon).length < 2 ^ 32
  | .bytes value => value.length < 2 ^ 32
  | _ => True

theorem writeU32Prefixed_eq_ok_iff {bytes word : Bytes} :
    writeU32Prefixed bytes = .ok word ↔
      bytes.length < 2 ^ 32 ∧ word = lengthPrefixed 4 bytes := by
  unfold writeU32Prefixed
  split
  · rename_i fits
    rw [Except.ok.injEq]
    constructor
    · rintro rfl
      exact ⟨by omega, rfl⟩
    · rintro ⟨_, rfl⟩
      rfl
  · rename_i long
    constructor
    · intro absurdity
      cases absurdity
    · rintro ⟨fits, _⟩
      omega

/-- A tagged value after its length. -/
theorem tagged_eq_ok_iff {tag : UInt8} {bytes word : Bytes} :
    ((tag :: ·) <$> writeU32Prefixed bytes : Except Panic Bytes) =
        .ok word ↔
      bytes.length < 2 ^ 32 ∧ word = tag :: lengthPrefixed 4 bytes := by
  cases written : writeU32Prefixed bytes with
  | error panic =>
      have long : ¬ bytes.length < 2 ^ 32 := by
        intro fits
        rw [writeU32Prefixed_eq_ok_iff.mpr ⟨fits, rfl⟩] at written
        cases written
      simp only [Functor.map, Except.map, long, reduceCtorEq, false_and]
  | ok inner =>
      rcases writeU32Prefixed_eq_ok_iff.mp written with ⟨fits, rfl⟩
      simp only [Functor.map, Except.map, Except.ok.injEq, fits, true_and]
      exact eq_comm

/-- The canonical text of a JSON value behind its tag. -/
theorem encodeValue_json_eq_ok_iff
    {chrono : Formatter} {value : Json} {word : Bytes} :
    encodeValue chrono (.json value) = .ok word ↔
      ∃ canon,
        toCanonicalString value.value = .ok canon ∧
          (utf8 canon).length < 2 ^ 32 ∧
            word = 0x04 :: lengthPrefixed 4 (utf8 canon) := by
  cases text : toCanonicalString value.value with
  | error panic => simp [encodeValue, text, bind, Except.bind]
  | ok canon =>
      rw [encodeValue, text]
      exact tagged_eq_ok_iff.trans (by simp)

/-- The encoder accepts exactly the values that fit. -/
theorem encodeValue_isOk_iff (chrono : Formatter) (value : CanonicalValue) :
    (∃ word, encodeValue chrono value = .ok word) ↔ value.Fits := by
  cases value with
  | uuid value => simp [encodeValue, CanonicalValue.Fits]
  | i64 value => simp [encodeValue, CanonicalValue.Fits]
  | str value =>
      simp only [encodeValue, tagged_eq_ok_iff, CanonicalValue.Fits]
      simp
  | json value =>
      simp only [encodeValue_json_eq_ok_iff, CanonicalValue.Fits]
      constructor
      · rintro ⟨word, canon, text, fits, rfl⟩
        have free : value.FloatFree := by
          apply (writeValue_isOk_iff value.value).mp
          cases written : writeValue value.value with
          | error panic =>
              simp [toCanonicalString, written, Functor.map, Except.map]
                at text
          | ok word => exact ⟨word, rfl⟩
        refine ⟨free, fun canon' text' => ?_⟩
        rw [text, Except.ok.injEq] at text'
        rwa [← text']
      · rintro ⟨free, short⟩
        rcases (writeValue_isOk_iff value.value).mpr free with ⟨word, text⟩
        have canonical :
            toCanonicalString value.value = .ok (String.ofList word) := by
          rw [toCanonicalString, text]
          rfl
        exact ⟨_, _, canonical, short _ canonical, rfl⟩
  | timestamp value =>
      simp only [encodeValue, tagged_eq_ok_iff, CanonicalValue.Fits,
        chrono.short value]
      simp
  | bytes value =>
      simp only [encodeValue, tagged_eq_ok_iff, CanonicalValue.Fits]
      simp
  | null => simp [encodeValue, CanonicalValue.Fits]
  | bool value => simp [encodeValue, CanonicalValue.Fits]

/-- The name of an encoded field is ASCII and comes before its value. -/
theorem encodeField_eq_ok_iff
    {chrono : Formatter} {field : CanonicalField} {word : Bytes} :
    encodeField chrono field = .ok word ↔
      isAscii field.name = true ∧
        ∃ inner,
          encodeValue chrono field.value = .ok inner ∧
            word = lengthPrefixed 2 (utf8 field.name) ++ inner := by
  unfold encodeField
  split
  · rename_i ascii
    cases value : encodeValue chrono field.value with
    | error panic => simp [Functor.map, Except.map]
    | ok inner =>
        simp only [Functor.map, Except.map, Except.ok.injEq, ascii, true_and,
          exists_eq_left']
        exact eq_comm
  · rename_i notAscii
    simp [notAscii]

/-- In a sorted row, no neighbours with one name means no name twice. -/
theorem duplicateName_eq_none_iff
    {fields : List CanonicalField}
    (sorted :
      fields.Pairwise fun first second => first.name ≤ second.name) :
    duplicateName fields = none ↔
      (fields.map CanonicalField.name).Nodup := by
  induction fields with
  | nil => simp [duplicateName]
  | cons first fields induction =>
      rw [List.pairwise_cons] at sorted
      cases fields with
      | nil => simp [duplicateName]
      | cons second fields =>
          simp only [duplicateName]
          split
          · rename_i equal
            simp [equal]
          · rename_i different
            have fresh :
                first.name ∉
                  (second :: fields).map CanonicalField.name := by
              intro member
              rcases List.mem_map.mp member with ⟨other, present, equal⟩
              rcases List.mem_cons.mp present with rfl | later
              · exact different equal.symm
              · -- a later field with this name forces it on the neighbour
                have above := sorted.1 second List.mem_cons_self
                have below := (List.pairwise_cons.mp sorted.2).1 other later
                exact different (le_antisymm above (below.trans equal.le))
            rw [induction sorted.2]
            exact (List.nodup_cons.trans (and_iff_right fresh)).symm

/-- What is checked of a row before its fields are encoded. -/
structure Checked (table : String) (fields : List CanonicalField) : Prop where
  ascii : isAscii table = true
  tableLength : (utf8 table).length < 2 ^ 16
  fieldCount : fields.length < 2 ^ 16
  distinct : (fields.map CanonicalField.name).Nodup

/-- The bytes of an accepted row. -/
theorem canonicalRowBytes_eq_ok_iff
    {chrono : Formatter} {table : String} {fields : List CanonicalField}
    {bytes : Bytes} :
    canonicalRowBytes chrono table fields = .ok bytes ↔
      Checked table fields ∧
        ∃ encoded,
          List.Forall₂
              (fun field word => encodeField chrono field = .ok word)
              (sortByKey CanonicalField.name fields) encoded ∧
            bytes =
              rowDomain ++ lengthPrefixed 2 (utf8 table) ++
                bigEndian 2 fields.length ++ encoded.flatten := by
  have distinct :=
    duplicateName_eq_none_iff (sortByKey_pairwise CanonicalField.name fields)
  rw [((sortByKey_perm CanonicalField.name fields).map _).nodup_iff]
    at distinct
  unfold canonicalRowBytes
  split_ifs with notAscii tableLong fieldsMany
  · constructor
    · intro absurdity
      cases absurdity
    · rintro ⟨checked, _⟩
      simp [checked.ascii] at notAscii
  · constructor
    · intro absurdity
      cases absurdity
    · rintro ⟨checked, _⟩
      have := checked.tableLength
      omega
  · constructor
    · intro absurdity
      cases absurdity
    · rintro ⟨checked, _⟩
      have := checked.fieldCount
      omega
  · dsimp only
    cases duplicate :
        duplicateName (sortByKey CanonicalField.name fields) with
    | some name =>
        constructor
        · intro absurdity
          cases absurdity
        · rintro ⟨checked, _⟩
          rw [distinct.mpr checked.distinct] at duplicate
          cases duplicate
    | none =>
        have checked : Checked table fields :=
          ⟨by simpa using notAscii, by omega, by omega,
            distinct.mp duplicate⟩
        simp only [checked, true_and, length_sortByKey,
          ← writeAll_map_eq_ok_iff]
        cases writeAll
            ((sortByKey CanonicalField.name fields).map
              (encodeField chrono)) with
        | error panic => simp [bind, Except.bind]
        | ok encoded =>
            simp only [bind, Except.bind, pure, Except.pure,
              Except.ok.injEq, exists_eq_left']
            exact eq_comm

/-- A row is accepted when its names are in order and its values fit. -/
theorem canonicalRowBytes_isOk_iff
    {chrono : Formatter} {table : String} {fields : List CanonicalField} :
    (∃ bytes, canonicalRowBytes chrono table fields = .ok bytes) ↔
      Checked table fields ∧
        ∀ field ∈ fields, isAscii field.name = true ∧ field.value.Fits := by
  have writers :
      (∃ encoded,
          List.Forall₂
            (fun field word => encodeField chrono field = .ok word)
            (sortByKey CanonicalField.name fields) encoded) ↔
        ∀ field ∈ fields, isAscii field.name = true ∧ field.value.Fits := by
    simp only [← writeAll_map_eq_ok_iff, writeAll_isOk_iff, List.mem_map,
      forall_exists_index, and_imp, forall_apply_eq_imp_iff₂,
      mem_sortByKey]
    refine forall₂_congr fun field _ => ?_
    simp only [encodeField_eq_ok_iff, ← encodeValue_isOk_iff chrono]
    constructor
    · rintro ⟨word, ascii, inner, encoded, _⟩
      exact ⟨ascii, inner, encoded⟩
    · rintro ⟨ascii, inner, encoded⟩
      exact ⟨_, ascii, inner, encoded, rfl⟩
  rw [← writers]
  constructor
  · rintro ⟨bytes, accepted⟩
    rcases canonicalRowBytes_eq_ok_iff.mp accepted with
      ⟨checked, encoded, written, _⟩
    exact ⟨checked, encoded, written⟩
  · rintro ⟨checked, encoded, written⟩
    exact
      ⟨_, canonicalRowBytes_eq_ok_iff.mpr ⟨checked, encoded, written, rfl⟩⟩

/-! ## Reading rows back -/

/-- A value that carries its length is read back after its tag. -/
theorem tagged_append_inj
    {tag : UInt8} {first second rest rest' : Bytes}
    (fits : first.length < 2 ^ 32) (fits' : second.length < 2 ^ 32)
    (streams :
      (tag :: lengthPrefixed 4 first) ++ rest =
        (tag :: lengthPrefixed 4 second) ++ rest') :
    first = second ∧ rest = rest' := by
  simp only [List.cons_append, List.cons.injEq, true_and] at streams
  exact lengthPrefixed_append_inj (by omega) (by omega) streams

/-- The tag under which a value is encoded. -/
def tagOf : CanonicalValue → UInt8
  | .uuid _ => 0x01
  | .i64 _ => 0x02
  | .str _ => 0x03
  | .json _ => 0x04
  | .timestamp _ => 0x05
  | .bytes _ => 0x06
  | .null => 0x07
  | .bool _ => 0x08

/-- Every encoded value starts with its tag. -/
theorem encodeValue_cons
    {chrono : Formatter} {value : CanonicalValue} {word : Bytes}
    (encoded : encodeValue chrono value = .ok word) :
    ∃ tail, word = tagOf value :: tail := by
  cases value with
  | uuid value =>
      cases encoded
      exact ⟨_, rfl⟩
  | i64 value =>
      cases encoded
      exact ⟨_, rfl⟩
  | str value =>
      rw [encodeValue, tagged_eq_ok_iff] at encoded
      exact ⟨_, encoded.2⟩
  | json value =>
      rw [encodeValue_json_eq_ok_iff] at encoded
      rcases encoded with ⟨canon, _, _, rfl⟩
      exact ⟨_, rfl⟩
  | timestamp value =>
      rw [encodeValue, tagged_eq_ok_iff] at encoded
      exact ⟨_, encoded.2⟩
  | bytes value =>
      rw [encodeValue, tagged_eq_ok_iff] at encoded
      exact ⟨_, encoded.2⟩
  | null =>
      cases encoded
      exact ⟨_, rfl⟩
  | bool value =>
      cases encoded
      exact ⟨_, rfl⟩

/-- An encoded value identifies its content in front of any stream. -/
theorem encodeValue_delimits (chrono : Formatter) (value : CanonicalValue) :
    Delimits (fun value word => encodeValue chrono value = .ok word)
      SameValue anything value := by
  intro word second word' rest rest' first other _ _ streams
  have tags : tagOf value = tagOf second := by
    rcases encodeValue_cons first with ⟨tail, rfl⟩
    rcases encodeValue_cons other with ⟨tail', rfl⟩
    simp only [List.cons_append, List.cons.injEq] at streams
    exact streams.1
  cases value <;> cases second <;> try (simp [tagOf] at tags; done)
  case uuid.uuid value value' =>
    cases first
    cases other
    simp only [uuidBytes, List.cons_append, List.cons.injEq, true_and]
      at streams
    have same := bigEndian_append_inj value.isLt value'.isLt streams
    rw [BitVec.eq_of_toNat_eq same.1]
    exact ⟨.uuid _, same.2⟩
  case i64.i64 value value' =>
    cases first
    cases other
    simp only [List.cons_append, List.cons.injEq, true_and] at streams
    have same :=
      bigEndian_append_inj value.toBitVec.isLt value'.toBitVec.isLt streams
    rw [Int64.toBitVec_inj.mp (BitVec.eq_of_toNat_eq same.1)]
    exact ⟨.i64 _, same.2⟩
  case str.str value value' =>
    rw [encodeValue, tagged_eq_ok_iff] at first other
    rcases first with ⟨fits, rfl⟩
    rcases other with ⟨fits', rfl⟩
    have same := tagged_append_inj fits fits' streams
    rw [utf8_injective same.1]
    exact ⟨.str _, same.2⟩
  case json.json value value' =>
    rw [encodeValue_json_eq_ok_iff] at first other
    rcases first with ⟨canon, text, fits, rfl⟩
    rcases other with ⟨canon', text', fits', rfl⟩
    have same := tagged_append_inj fits fits' streams
    rw [← utf8_injective same.1] at text'
    exact ⟨.json (same_of_toCanonicalString text text'), same.2⟩
  case timestamp.timestamp value value' =>
    rw [encodeValue, tagged_eq_ok_iff] at first other
    rcases first with ⟨fits, rfl⟩
    rcases other with ⟨fits', rfl⟩
    have same := tagged_append_inj fits fits' streams
    exact
      ⟨.timestamp
        ((chrono.text_eq_iff _ _).mp (utf8_injective same.1)), same.2⟩
  case bytes.bytes value value' =>
    rw [encodeValue, tagged_eq_ok_iff] at first other
    rcases first with ⟨fits, rfl⟩
    rcases other with ⟨fits', rfl⟩
    have same := tagged_append_inj fits fits' streams
    rw [same.1]
    exact ⟨.bytes _, same.2⟩
  case null.null =>
    cases first
    cases other
    simp only [List.cons_append, List.cons.injEq, true_and] at streams
    exact ⟨.null, streams⟩
  case bool.bool value value' =>
    cases first
    cases other
    simp only [List.cons_append, List.cons.injEq, true_and] at streams
    have same : value = value' := by
      cases value <;> cases value' <;> simp at streams ⊢
    rw [same]
    exact ⟨.bool _, streams.2⟩

/-- An encoded field identifies its name and content in front of a stream. -/
theorem encodeField_delimits
    (chrono : Formatter) (field : CanonicalField) :
    Delimits
      (fun field word =>
        (utf8 field.name).length < 2 ^ 16 ∧
          encodeField chrono field = .ok word)
      SameField anything field := by
  rintro word second word' rest rest' ⟨short, first⟩ ⟨short', other⟩ _ _
    streams
  rcases encodeField_eq_ok_iff.mp first with ⟨_, inner, value, rfl⟩
  rcases encodeField_eq_ok_iff.mp other with ⟨_, inner', value', rfl⟩
  simp only [List.append_assoc] at streams
  have names := lengthPrefixed_append_inj (by omega) (by omega) streams
  have values :=
    encodeValue_delimits chrono field.value _ _ _ _ _ value value'
      trivial trivial names.2
  exact ⟨⟨utf8_injective names.1, values.1⟩, values.2⟩

/-- The field names of a row are short enough for their length prefix. -/
def ShortNames (fields : List CanonicalField) : Prop :=
  ∀ field ∈ fields, (utf8 field.name).length < 2 ^ 16

/-- One encoding comes from one row only. -/
theorem sameRow_of_bytes
    {chrono : Formatter} {table table' : String}
    {fields fields' : List CanonicalField} {bytes : Bytes}
    (accepted : canonicalRowBytes chrono table fields = .ok bytes)
    (accepted' : canonicalRowBytes chrono table' fields' = .ok bytes)
    (short : ShortNames fields) (short' : ShortNames fields') :
    table = table' ∧ Reordered SameField fields fields' := by
  rcases canonicalRowBytes_eq_ok_iff.mp accepted with
    ⟨checked, encoded, written, rfl⟩
  rcases canonicalRowBytes_eq_ok_iff.mp accepted' with
    ⟨checked', encoded', written', streams⟩
  have lengths : fields.length < 256 ^ 2 := checked.fieldCount
  have lengths' : fields'.length < 256 ^ 2 := checked'.fieldCount
  simp only [List.append_assoc, List.append_cancel_left_eq] at streams
  have tables :=
    lengthPrefixed_append_inj checked.tableLength checked'.tableLength
      streams
  have counts := bigEndian_append_inj lengths lengths' tables.2
  have withNames :
      ∀ {entries : List CanonicalField} {words : List Bytes},
        ShortNames entries →
          List.Forall₂
              (fun field word => encodeField chrono field = .ok word)
              (sortByKey CanonicalField.name entries) words →
            List.Forall₂
              (fun field word =>
                (utf8 field.name).length < 2 ^ 16 ∧
                  encodeField chrono field = .ok word)
              (sortByKey CanonicalField.name entries) words := by
    intro entries words shortNames pointwise
    rw [List.forall₂_and_left]
    exact
      ⟨fun field member => shortNames field (mem_sortByKey.mp member),
        pointwise⟩
  have ends : encoded.flatten ++ ([] : Bytes) = encoded'.flatten ++ [] := by
    rw [counts.2]
  have fieldsSame :=
    sequence_inj
      (fun field _ => encodeField_delimits chrono field)
      (withNames short written) (withNames short' written')
      (by simpa using counts.1) ends
  exact ⟨utf8_injective tables.1, reordered_of_sortByKey fieldsSame.1⟩

/-! ## One row has one encoding -/

theorem encodeValue_eq_of_same
    (chrono : Formatter) {first second : CanonicalValue}
    (same : SameValue first second) :
    encodeValue chrono first = encodeValue chrono second := by
  cases same with
  | json same =>
      rename_i first second
      have texts :
          toCanonicalString first.value = toCanonicalString second.value := by
        rw [toCanonicalString, toCanonicalString,
          writeValue_eq_of_same second.wellFormed same]
      rw [encodeValue, encodeValue, texts]
  | timestamp same =>
      rw [encodeValue, encodeValue, (chrono.text_eq_iff _ _).mpr same]
  | _ => rfl

theorem encodeField_eq_of_same
    (chrono : Formatter) {first second : CanonicalField}
    (same : SameField first second) :
    encodeField chrono first = encodeField chrono second := by
  rw [encodeField, encodeField, same.1,
    encodeValue_eq_of_same chrono same.2]

/-- The encoding depends on the content of the row only. -/
theorem bytes_of_sameRow
    {chrono : Formatter} {table : String}
    {fields fields' : List CanonicalField} {bytes : Bytes}
    (accepted : canonicalRowBytes chrono table fields' = .ok bytes)
    (same : Reordered SameField fields fields') :
    canonicalRowBytes chrono table fields = .ok bytes := by
  rcases canonicalRowBytes_eq_ok_iff.mp accepted with
    ⟨checked, encoded, written, rfl⟩
  have respects :
      ∀ first second, SameField first second → first.name = second.name :=
    fun first second both => both.1
  have sorted := same.sortByKey respects checked.distinct
  have counts : fields.length = fields'.length := by
    simpa using sorted.length_eq
  have texts :
      (sortByKey CanonicalField.name fields).map (encodeField chrono) =
        (sortByKey CanonicalField.name fields').map (encodeField chrono) :=
    map_eq_of_forall₂ sorted fun first _ second _ both =>
      encodeField_eq_of_same chrono both
  rw [canonicalRowBytes_eq_ok_iff]
  refine ⟨⟨checked.ascii, checked.tableLength, ?_, ?_⟩, encoded, ?_, ?_⟩
  · rw [counts]
    exact checked.fieldCount
  · exact same.nodup respects checked.distinct
  · rwa [← writeAll_map_eq_ok_iff, texts, writeAll_map_eq_ok_iff]
  · rw [counts]

/--
Two accepted rows have the same bytes exactly when they are the same row: one
table, and fields that agree up to order.
-/
theorem canonicalRowBytes_eq_iff
    (chrono : Formatter) {table table' : String}
    {fields fields' : List CanonicalField} {bytes bytes' : Bytes}
    (accepted : canonicalRowBytes chrono table fields = .ok bytes)
    (accepted' : canonicalRowBytes chrono table' fields' = .ok bytes')
    (short : ShortNames fields) (short' : ShortNames fields') :
    bytes = bytes' ↔
      table = table' ∧ Reordered SameField fields fields' := by
  constructor
  · rintro rfl
    exact sameRow_of_bytes accepted accepted' short short'
  · rintro ⟨rfl, same⟩
    have equal := bytes_of_sameRow accepted' same
    rwa [accepted, Except.ok.injEq] at equal

/-- A JSON object with two members. -/
def noteBody : Json :=
  ⟨.object
    [("to", .string "x"),
      ("n", .number (.integer 1 (by decide) (by decide)))], by decide⟩

/-- The same object with its members swapped. -/
def noteBodySwapped : Json :=
  ⟨.object
    [("n", .number (.integer 1 (by decide) (by decide))),
      ("to", .string "x")], by decide⟩

/-- A timestamp with this many nanoseconds in its second. -/
def noteTime (nanos : Nat) (early : nanos < 10 ^ 9) : DateTime where
  seconds := 1700000000
  nanos := nanos
  nanos_lt := by omega
  leap := by omega
  low := by decide
  high := by decide

/-- An event as a caller sends it. -/
def sentFields : List CanonicalField :=
  [.uuid "id" 7, .json "body" noteBody,
    .timestamp "occurred_at" (noteTime 123456789 (by decide))]

/-- The same event with everything in another order, to the microsecond. -/
def rearrangedFields : List CanonicalField :=
  [.timestamp "occurred_at" (noteTime 123456000 (by decide)),
    .uuid "id" 7, .json "body" noteBodySwapped]

/-- The two events are accepted and have the same bytes. -/
theorem sentFields_bytes_eq_rearrangedFields_bytes :
    ∃ bytes bytes',
      canonicalRowBytes rfc3339 "events" sentFields = .ok bytes ∧
        canonicalRowBytes rfc3339 "events" rearrangedFields = .ok bytes' ∧
          bytes = bytes' := by
  have short : ShortNames sentFields := by
    unfold ShortNames
    decide
  have short' : ShortNames rearrangedFields := by
    unfold ShortNames
    decide
  have bodies : noteBody.Same noteBodySwapped :=
    Value.same_object_iff.mpr
      ⟨_, .cons ⟨rfl, .refl _⟩ (.cons ⟨rfl, .refl _⟩ .nil), .swap _ _ _⟩
  have same : Reordered SameField sentFields rearrangedFields :=
    ⟨[.uuid "id" 7, .json "body" noteBodySwapped] ++
        [.timestamp "occurred_at" (noteTime 123456000 (by decide))],
      .cons (.refl _)
        (.cons ⟨rfl, .json bodies⟩
          (.cons ⟨rfl, .timestamp ⟨rfl, by decide⟩⟩ .nil)),
      List.perm_append_comm⟩
  have isOk :
      (canonicalRowBytes rfc3339 "events" sentFields).isOk = true := by
    decide +kernel
  have isOk' :
      (canonicalRowBytes rfc3339 "events" rearrangedFields).isOk =
        true := by
    decide +kernel
  cases accepted : canonicalRowBytes rfc3339 "events" sentFields with
  | error panic =>
      rw [accepted] at isOk
      cases isOk
  | ok bytes =>
      cases accepted' :
          canonicalRowBytes rfc3339 "events" rearrangedFields with
      | error panic =>
          rw [accepted'] at isOk'
          cases isOk'
      | ok bytes' =>
          exact ⟨bytes, bytes', rfl, rfl,
            (canonicalRowBytes_eq_iff rfc3339 accepted accepted' short
              short').mpr ⟨rfl, same⟩⟩

end Trackward.ChainCore.Encode
