import Trackward.ChainCore.CanonicalJson
import Trackward.ChainCore.Encode

/-!
# Plain texts

A text is plain when a string literal holds it without escapes.  Hexadecimal
texts, identifiers and timestamps are plain, so a hand-written template around
them is what the JSON writer would have written.
-/

namespace Trackward.ChainCore.PlainTexts

open Trackward.ChainCore.CanonicalJson
open Trackward.ChainCore.Chrono
open Trackward.ChainCore.Encode
open Trackward.Lib
open Trackward.Lib.Octets
open Trackward.Lib.PrefixCodes

/-- A symbol a string literal holds as it is. -/
def PlainSymbol (symbol : Char) : Prop :=
  escape symbol = [symbol]

instance (symbol : Char) : Decidable (PlainSymbol symbol) :=
  inferInstanceAs (Decidable (escape symbol = [symbol]))

/-- A text a string literal holds as it is. -/
def Plain (text : String) : Prop :=
  ∀ symbol ∈ text.toList, PlainSymbol symbol

instance (text : String) : Decidable (Plain text) :=
  List.decidableBAll PlainSymbol text.toList

/-- The literal of a plain text is the text between quotes. -/
theorem writeString_of_plain {text : String} (plain : Plain text) :
    writeString text = '"' :: text.toList ++ ['"'] := by
  have unescaped :
      ∀ symbols : List Char, (∀ symbol ∈ symbols, PlainSymbol symbol) →
        (symbols.map escape).flatten = symbols := by
    intro symbols
    induction symbols with
    | nil => exact fun _ => rfl
    | cons symbol symbols induction =>
        intro all
        have head : escape symbol = [symbol] := all symbol List.mem_cons_self
        rw [List.map_cons, List.flatten_cons, head,
          induction fun other member =>
            all other (List.mem_cons_of_mem _ member)]
        rfl
  rw [writeString, unescaped text.toList plain]

theorem plain_append {first second : String}
    (plain : Plain first) (plain' : Plain second) :
    Plain (first ++ second) := by
  intro symbol member
  rw [String.toList_append] at member
  rcases List.mem_append.mp member with earlier | later
  · exact plain symbol earlier
  · exact plain' symbol later

theorem plainSymbol_digit {symbol : Char} (digit : IsDigit symbol) :
    PlainSymbol symbol := by
  unfold PlainSymbol escape
  split
  case h_8 =>
      have low : '0'.val ≤ symbol.val := by
        simp only [IsDigit, Char.isDigit, Bool.and_eq_true,
          decide_eq_true_eq] at digit
        exact digit.1
      have printable : 48 ≤ symbol.toNat := low
      rw [if_neg (by omega)]
  all_goals cases digit

theorem plainSymbol_digitChar {value : Nat} (small : value < 16) :
    PlainSymbol (Nat.digitChar value) := by
  revert value
  decide

/-! ## Hexadecimal texts and identifiers -/

theorem plain_encode (bytes : Bytes) : Plain (Hexadecimal.encode bytes) := by
  intro symbol member
  rw [Hexadecimal.encode, String.toList_ofList, List.mem_flatten] at member
  rcases member with ⟨digits, listed, member⟩
  rcases List.mem_map.mp listed with ⟨byte, _, rfl⟩
  have small : byte.toNat < 256 := byte.toNat_lt
  simp only [Hexadecimal.digits, List.mem_cons, List.not_mem_nil, or_false]
    at member
  rcases member with rfl | rfl
  · exact plainSymbol_digitChar (by omega)
  · exact plainSymbol_digitChar (by omega)

theorem plain_uuidText (id : Uuid) : Plain (uuidText id) := by
  have group :
      ∀ start length : Nat, ∀ symbol,
        symbol ∈
            ((Hexadecimal.encode (uuidBytes id)).toList.drop start).take
              length →
          PlainSymbol symbol := fun start length symbol member =>
    plain_encode _ symbol (List.mem_of_mem_drop (List.mem_of_mem_take member))
  have dash : PlainSymbol '-' := by decide
  intro symbol member
  simp only [uuidText, String.toList_ofList, List.mem_append, List.mem_cons,
    or_assoc] at member
  rcases member with inGroup | rfl | inGroup | rfl | inGroup | rfl |
    inGroup | rfl | inGroup
  · exact group _ _ symbol inGroup
  · exact dash
  · exact group _ _ symbol inGroup
  · exact dash
  · exact group _ _ symbol inGroup
  · exact dash
  · exact group _ _ symbol inGroup
  · exact dash
  · exact group _ _ symbol inGroup

/-! ## Timestamps -/

theorem plain_zeroPadded {width value : Nat} :
    ∀ symbol ∈ Rfc3339.zeroPadded width value, PlainSymbol symbol := by
  intro symbol member
  rcases List.mem_append.mp member with zero | digit
  · rw [List.eq_of_mem_replicate zero]
    decide
  · exact
      plainSymbol_digit
        (Nat.isDigit_of_mem_toDigits (by decide) (by decide) digit)

theorem plain_render {shape : List (Char × Nat)}
    (separators : ∀ field ∈ shape, PlainSymbol field.1)
    (values : List Nat) :
    ∀ symbol ∈ Rfc3339.render shape values, PlainSymbol symbol := by
  induction shape generalizing values with
  | nil => simp [Rfc3339.render]
  | cons field shape induction =>
      cases values with
      | nil => simp [Rfc3339.render]
      | cons value values =>
          intro symbol member
          simp only [Rfc3339.render, List.cons_append, List.mem_cons,
            List.mem_append] at member
          rcases member with rfl | digit | later
          · exact separators field List.mem_cons_self
          · exact plain_zeroPadded symbol digit
          · exact
              induction
                (fun other member =>
                  separators other (List.mem_cons_of_mem _ member))
                values symbol later

theorem plain_yearText (year : Int) :
    ∀ symbol ∈ Rfc3339.yearText year, PlainSymbol symbol := by
  have signed : PlainSymbol (Rfc3339.sign year) := by
    unfold Rfc3339.sign
    split <;> decide
  unfold Rfc3339.yearText
  split
  · exact plain_zeroPadded
  · intro symbol member
    rcases List.mem_cons.mp member with rfl | digit
    · exact signed
    · exact plain_zeroPadded symbol digit

/-- The texts of RFC 3339 are plain. -/
theorem plain_rfc3339 (time : DateTime) :
    Plain (rfc3339.toRfc3339Micros time) := by
  intro symbol member
  simp only [rfc3339, Rfc3339.text, Rfc3339.symbols, String.toList_ofList,
    List.mem_append, List.mem_singleton] at member
  rcases member with year | clock | rfl
  · exact plain_yearText _ symbol year
  · exact plain_render (by decide) _ symbol clock
  · decide

end Trackward.ChainCore.PlainTexts
