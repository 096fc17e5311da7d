import Trackward.ChainCore.CanonicalJson

/-!
# Reading flat objects

Manifests and the documents around them are objects whose members are texts and
integers.  The reader of this module accepts compact texts of such objects and
reads the canonical text of one back, with its members sorted.
-/

namespace Trackward.ChainCore.JsonReader

open Trackward.ChainCore.CanonicalJson
open Trackward.ChainCore.JsonValue
open Trackward.Lib.KeyedLists
open Trackward.Lib.Octets
open Trackward.Lib.PrefixCodes

/-! ## The reader -/

/-- The symbols of a string literal up to the quote that closes it. -/
def readSymbols : Nat → List Char → Option (List Char × List Char)
  | 0, _ => none
  | fuel + 1, stream =>
      match unescape stream with
      | none => none
      | some (symbol, rest) =>
          if stream.head? = some '"' then some ([], rest)
          else
            match readSymbols fuel rest with
            | none => none
            | some (symbols, rest) => some (symbol :: symbols, rest)

/-- A string literal. -/
def readString : List Char → Option (String × List Char)
  | '"' :: rest =>
      (readSymbols rest.length rest).map fun read =>
        (String.ofList read.1, read.2)
  | _ => none

/-- A numeral without a sign. -/
def readNatural (stream : List Char) : Option (Nat × List Char) :=
  match stream.takeWhile Char.isDigit with
  | [] => none
  | digits =>
      some (Nat.ofDigitChars 10 digits 0, stream.dropWhile Char.isDigit)

/-- An integer. -/
def readInteger : List Char → Option (Int × List Char)
  | '-' :: rest =>
      (readNatural rest).map fun read => (-(read.1 : Int), read.2)
  | stream => (readNatural stream).map fun read => ((read.1 : Int), read.2)

/-- An integer that fits 64 bits, as a value. -/
def integerValue (value : Int) : Option Value :=
  if fits : -2 ^ 63 ≤ value ∧ value < 2 ^ 64 then
    some (.number (.integer value fits.1 fits.2))
  else none

/-- A text or an integer. -/
def readScalar (stream : List Char) : Option (Value × List Char) :=
  match readString stream with
  | some (text, rest) => some (.string text, rest)
  | none =>
      match readInteger stream with
      | none => none
      | some (number, rest) =>
          (integerValue number).map fun value => (value, rest)

/-- A member of an object. -/
def readMember (stream : List Char) : Option (Member × List Char) :=
  match readString stream with
  | some (key, ':' :: rest) =>
      (readScalar rest).map fun read => ((key, read.1), read.2)
  | _ => none

/-- The members of an object up to the brace that closes it. -/
def readMembers : Nat → List Char → Option (List Member × List Char)
  | 0, _ => none
  | fuel + 1, stream =>
      match readMember stream with
      | some (member, ',' :: rest) =>
          (readMembers fuel rest).map fun read =>
            (member :: read.1, read.2)
      | some (member, '}' :: rest) => some ([member], rest)
      | _ => none

/-- The value of a text, if it is a flat object. -/
def readFlat (text : String) : Option Value :=
  match text.toList with
  | '{' :: stream =>
      if stream = ['}'] then some (.object [])
      else
        match readMembers stream.length stream with
        | some (members, []) => some (.object members)
        | _ => none
  | _ => none

/-! ## Reading back -/

/-- The members are texts and integers. -/
def Scalar : Value → Prop
  | .string _ => True
  | .number (.integer _ _ _) => True
  | _ => False

/-- An object of texts and integers. -/
def Flat : Value → Prop
  | .object members => ∀ member ∈ members, Scalar member.2
  | _ => False

/-- Escaped symbols are read back up to the closing quote. -/
theorem readSymbols_escape (symbols rest : List Char) {fuel : Nat}
    (enough : symbols.length < fuel) :
    readSymbols fuel ((symbols.map escape).flatten ++ '"' :: rest) =
      some (symbols, rest) := by
  induction symbols generalizing fuel with
  | nil =>
      cases fuel with
      | zero => cases enough
      | succ fuel => rfl
  | cons symbol symbols induction =>
      cases fuel with
      | zero => cases enough
      | succ fuel =>
          rcases escape_opens symbol with ⟨head, tail, opens, noQuote⟩
          rw [List.map_cons, List.flatten_cons, List.append_assoc,
            readSymbols, unescape_escape]
          have first :
              (escape symbol ++
                  ((symbols.map escape).flatten ++ '"' :: rest)).head? =
                some head := by
            rw [opens]
            rfl
          simp only [first, Option.some.injEq, noQuote, if_false]
          rw [induction (Nat.lt_of_succ_lt_succ enough)]

theorem length_le_length_escape (symbols : List Char) :
    symbols.length ≤ (symbols.map escape).flatten.length := by
  induction symbols with
  | nil => exact Nat.le_refl 0
  | cons symbol symbols induction =>
      rcases escape_opens symbol with ⟨head, tail, opens, _⟩
      rw [List.map_cons, List.flatten_cons, opens]
      simp only [List.length_cons, List.length_append]
      omega

/-- A string literal is read back. -/
theorem readString_writeString (text : String) (rest : List Char) :
    readString (writeString text ++ rest) = some (text, rest) := by
  have stream :
      writeString text ++ rest =
        '"' :: ((text.toList.map escape).flatten ++ '"' :: rest) := by
    simp [writeString]
  have grows := length_le_length_escape text.toList
  rw [stream, readString, readSymbols_escape]
  · simp
  · rw [List.length_append, List.length_cons]
    omega

/-- A numeral is read back up to what is no digit. -/
theorem readNatural_toDigits (value : Nat) {rest : List Char}
    (stops : Stops IsDigit rest) :
    readNatural (Nat.toDigits 10 value ++ rest) = some (value, rest) := by
  have digits : ∀ symbol ∈ Nat.toDigits 10 value, symbol.isDigit = true :=
    fun symbol member =>
      Nat.isDigit_of_mem_toDigits (by decide) (by decide) member
  have noDigits :
      rest.takeWhile Char.isDigit = [] ∧
        rest.dropWhile Char.isDigit = rest := by
    cases rest with
    | nil => exact ⟨rfl, rfl⟩
    | cons symbol tail =>
        have other : symbol.isDigit = false := by
          simpa [IsDigit] using stops symbol tail rfl
        simp [other]
  rcases toDigits_cons value with ⟨head, tail, numeral, _⟩
  rw [readNatural, List.takeWhile_append_of_pos digits,
    List.dropWhile_append_of_pos digits, noDigits.1, noDigits.2,
    List.append_nil]
  have back := @Nat.ofDigitChars_ten_toDigits value
  rw [numeral] at back ⊢
  simp only [back]

/-- An integer is read back up to what is no digit. -/
theorem readInteger_decimal (value : Int) {rest : List Char}
    (stops : Stops IsDigit rest) :
    readInteger (decimal value ++ rest) = some (value, rest) := by
  unfold decimal
  split
  case isTrue negative =>
      have back : -(value.natAbs : Int) = value := by omega
      rw [List.cons_append, readInteger, readNatural_toDigits _ stops,
        Option.map_some, back]
  case isFalse natural =>
      have back : (value.natAbs : Int) = value := by omega
      have read := readNatural_toDigits value.natAbs stops
      rcases toDigits_cons value.natAbs with ⟨head, tail, numeral, digit⟩
      have unsigned : head ≠ '-' := by
        rintro rfl
        cases digit
      rw [numeral] at read ⊢
      rw [List.cons_append] at read ⊢
      rw [readInteger, read, Option.map_some, back]
      exact fun others same => unsigned (List.cons.inj same).1

/-- The text of a text or an integer is read back. -/
theorem readScalar_writeValue {value : Value} {word rest : List Char}
    (scalar : Scalar value) (text : writeValue value = .ok word)
    (stops : Stops IsDigit rest) :
    readScalar (word ++ rest) = some (value, rest) := by
  cases value with
  | string text' =>
      cases text
      rw [readScalar, readString_writeString]
  | number number =>
      cases number with
      | integer value low high =>
          rw [writeValue_integer] at text
          cases text
          have noString : readString (decimal value ++ rest) = none := by
            rcases decimal_cons value with ⟨head, tail, numeral, announced⟩
            have noQuote : head ≠ '"' := by
              rintro rfl
              cases announced
            rw [numeral, List.cons_append, readString]
            exact fun others same => noQuote (List.cons.inj same).1
          have fits : -2 ^ 63 ≤ value ∧ value < 2 ^ 64 := ⟨low, high⟩
          simp only [readScalar, noString, readInteger_decimal value stops,
            integerValue, dif_pos fits, Option.map_some]
      | float bits => exact scalar.elim
  | _ => exact scalar.elim

/-- The text of a member is read back. -/
theorem readMember_memberText {member : Member} {word rest : List Char}
    (scalar : Scalar member.2) (text : memberText member = .ok word)
    (stops : Stops IsDigit rest) :
    readMember (word ++ rest) = some (member, rest) := by
  rcases memberText_eq_ok text with ⟨valueWord, value, rfl⟩
  rw [List.append_assoc, readMember, readString_writeString]
  simp [readScalar_writeValue scalar value stops]

/-- The members of an object are read back up to the closing brace. -/
theorem readMembers_separated {members : List Member}
    {words : List (List Char)}
    (scalars : ∀ member ∈ members, Scalar member.2)
    (texts :
      List.Forall₂ (fun member word => memberText member = .ok word)
        members words)
    (nonempty : members ≠ []) (rest : List Char) {fuel : Nat}
    (enough : members.length ≤ fuel) :
    readMembers fuel (separated ',' words ++ '}' :: rest) =
      some (members, rest) := by
  induction texts generalizing fuel with
  | nil => exact absurd rfl nonempty
  | @cons member word members words text later induction =>
      have scalar := scalars member List.mem_cons_self
      cases fuel with
      | zero => cases enough
      | succ fuel =>
          cases later with
          | nil =>
              have closes : Stops IsDigit ('}' :: rest) :=
                .cons (by simp [IsDigit])
              have read := readMember_memberText scalar text closes
              simp only [separated, readMembers, read]
          | @cons next nextWord members words nextText later =>
              have others :=
                induction
                  (fun member found =>
                    scalars member (List.mem_cons_of_mem _ found))
                  (List.cons_ne_nil _ _) (Nat.le_of_succ_le_succ enough)
              have goesOn :
                  Stops IsDigit
                    (',' :: (separated ',' (nextWord :: words) ++
                      '}' :: rest)) :=
                .cons (by simp [IsDigit])
              have read := readMember_memberText scalar text goesOn
              rw [separated, List.append_assoc, List.cons_append, readMembers,
                read]
              simp only [others, Option.map_some]

theorem length_le_length_separated {members : List Member}
    {words : List (List Char)}
    (texts :
      List.Forall₂ (fun member word => memberText member = .ok word)
        members words) :
    members.length ≤ (separated ',' words).length := by
  induction texts with
  | nil => exact Nat.zero_le _
  | @cons member word members words text later induction =>
      rcases memberText_eq_ok text with ⟨valueWord, _, rfl⟩
      cases later with
      | nil =>
          simp only [separated, List.length_append, List.length_cons,
            List.length_nil]
          omega
      | cons nextText later =>
          simp only [separated, List.length_append, List.length_cons]
            at induction ⊢
          omega

/-- The canonical text of a flat object is read back, its members sorted. -/
theorem readFlat_writeValue {members : List Member} {word : List Char}
    (scalars : ∀ member ∈ members, Scalar member.2)
    (text : writeValue (.object members) = .ok word) :
    readFlat (String.ofList word) =
      some (.object (sortByKey Prod.fst members)) := by
  rcases writeValue_object_eq_ok text with ⟨words, texts, rfl⟩
  have sortedScalars :
      ∀ member ∈ sortByKey Prod.fst members, Scalar member.2 :=
    fun member found =>
      scalars member ((sortByKey_perm Prod.fst members).subset found)
  rcases empty : sortByKey Prod.fst members with _ | ⟨first, others⟩
  · rw [empty] at texts
    cases texts
    simp [readFlat, separated]
  · rw [empty] at texts sortedScalars
    have enough :
        (first :: others).length ≤ (separated ',' words ++ ['}']).length := by
      have shorter := length_le_length_separated texts
      rw [List.length_append]
      omega
    have read :=
      readMembers_separated sortedScalars texts (List.cons_ne_nil _ _) []
        enough
    have opens :
        ∃ tail, separated ',' words ++ ['}'] = '"' :: tail := by
      cases texts with
      | @cons _ word _ words firstText later =>
          rcases memberText_eq_ok firstText with ⟨valueWord, _, rfl⟩
          rcases separated_cons ',' '"' _ words with ⟨tail, opens⟩
          exact ⟨tail ++ ['}'], by
            rw [writeString, List.cons_append, List.cons_append, opens,
              List.cons_append]⟩
    have noBrace : separated ',' words ++ ['}'] ≠ ['}'] := by
      rcases opens with ⟨tail, opens⟩
      rw [opens]
      simp
    rw [readFlat, String.toList_ofList, List.cons_append]
    simp only [noBrace, if_false, read]

/-- Parse a flat object. -/
def parseFlat (text : String) : Except String Json :=
  match readFlat text with
  | none => .error "expected value at line 1 column 1"
  | some value =>
      if formed : value.WellFormed then .ok ⟨value, formed⟩
      else .error "duplicate field"

/-- Serialise a flat object. -/
def flatToVec (value : Value) : Bytes :=
  match toCanonicalString value with
  | .ok text => utf8 text
  | .error _ => []

/-- Sorting the members of an object gives the same object. -/
theorem same_sortByKey (members : List Member) :
    (Value.object (sortByKey Prod.fst members)).Same (.object members) := by
  rw [Value.same_object_iff]
  refine ⟨_, List.forall₂_same.mpr ?_, sortByKey_perm Prod.fst members⟩
  intro member _
  exact ⟨rfl, .refl member.2⟩

/-- The canonical text of a flat object parses to the same object. -/
theorem parseFlat_toCanonicalString {value : Value} {text : String}
    (flat : Flat value) (formed : value.WellFormed)
    (written : toCanonicalString value = .ok text) :
    ∃ json, parseFlat text = .ok json ∧ json.value.Same value := by
  cases value with
  | object members =>
      cases word : writeValue (.object members) with
      | error panic =>
          rw [toCanonicalString, word] at written
          cases written
      | ok word' =>
          rw [toCanonicalString, word] at written
          cases written
          have read := readFlat_writeValue flat word
          have sortedFormed :
              (Value.object (sortByKey Prod.fst members)).WellFormed := by
            have perm := sortByKey_perm Prod.fst members
            rw [Value.wellFormed_object_iff] at formed ⊢
            exact ⟨(perm.map Prod.fst).nodup_iff.mpr formed.1,
              fun member listed => formed.2 member (perm.subset listed)⟩
          refine ⟨⟨_, sortedFormed⟩, ?_, same_sortByKey members⟩
          simp only [parseFlat, read, dif_pos sortedFormed]
  | _ => exact flat.elim

/-- A flat object has a canonical text. -/
theorem exists_toCanonicalString {value : Value} (flat : Flat value) :
    ∃ text, toCanonicalString value = .ok text := by
  cases value with
  | object members =>
      have floatFree : (Value.object members).FloatFree := by
        rw [Value.floatFree_object_iff]
        intro member listed
        have scalar := flat member listed
        rcases member with ⟨key, value⟩
        cases value with
        | string text =>
            simp [Value.FloatFree, Value.nested, Value.isInteger]
        | number number =>
            cases number with
            | integer value low high =>
                simp [Value.FloatFree, Value.nested, Value.isInteger]
            | float bits => exact scalar.elim
        | _ => exact scalar.elim
      rcases (writeValue_isOk_iff _).mpr floatFree with ⟨word, written⟩
      exact ⟨_, by rw [toCanonicalString, written]; rfl⟩
  | _ => exact flat.elim

end Trackward.ChainCore.JsonReader
