import Trackward.ChainCore.Encode

/-!
# The texts of identifiers

The text of an identifier has one length, and no two identifiers share it.
-/

namespace Trackward.ChainCore.UuidTexts

open Trackward.ChainCore.Encode
open Trackward.Lib
open Trackward.Lib.Octets

/-- The groups of a text of 32 symbols make up the text. -/
theorem groups_append (symbols : List Char) (length : symbols.length = 32) :
    symbols.take 8 ++ (symbols.drop 8).take 4 ++ (symbols.drop 12).take 4 ++
        (symbols.drop 16).take 4 ++ (symbols.drop 20).take 12 =
      symbols := by
  have whole : symbols.take (8 + 4 + 4 + 4 + 12) = symbols :=
    List.take_of_length_le (by omega)
  simpa only [List.take_add] using whole

/-- The digits of an id. -/
def hexDigits (id : Uuid) : List Char :=
  (Hexadecimal.encode (uuidBytes id)).toList

theorem length_hexDigits (id : Uuid) : (hexDigits id).length = 32 := by
  rw [hexDigits, Hexadecimal.encode, String.toList_ofList,
    Hexadecimal.length_digits, uuidBytes, length_bigEndian]

theorem hexDigits_injective : Function.Injective hexDigits := by
  intro first second same
  have bytes : uuidBytes first = uuidBytes second :=
    Hexadecimal.encode_injective (String.toList_injective same)
  have range : 2 ^ 128 = 256 ^ 16 := by decide
  have numbers : first.toNat = second.toNat :=
    bigEndian_inj (by rw [← range]; exact first.isLt)
      (by rw [← range]; exact second.isLt) bytes
  exact BitVec.eq_of_toNat_eq numbers

/-- The groups of digits and the dashes between them make up the text. -/
theorem toList_uuidText (id : Uuid) :
    (uuidText id).toList =
      (hexDigits id).take 8 ++ '-' :: ((hexDigits id).drop 8).take 4 ++
        '-' :: ((hexDigits id).drop 12).take 4 ++
          '-' :: ((hexDigits id).drop 16).take 4 ++
            '-' :: ((hexDigits id).drop 20).take 12 := by
  rw [uuidText, String.toList_ofList]
  rfl

theorem length_group (id : Uuid) {start length : Nat}
    (small : start + length ≤ 32) :
    (((hexDigits id).drop start).take length).length = length := by
  rw [List.length_take, List.length_drop, length_hexDigits]
  omega

theorem length_uuidText (id : Uuid) : (uuidText id).toList.length = 36 := by
  rw [toList_uuidText]
  simp only [List.length_append, List.length_cons, List.length_take,
    List.length_drop, length_hexDigits]
  rfl

/-- Texts that end in a dash and a group differ before it or in the group. -/
theorem append_group_inj {first second : Uuid} {start length : Nat}
    (small : start + length ≤ 32) {before before' : List Char}
    (same :
      before ++ '-' :: ((hexDigits first).drop start).take length =
        before' ++ '-' :: ((hexDigits second).drop start).take length) :
    before = before' ∧
      ((hexDigits first).drop start).take length =
        ((hexDigits second).drop start).take length := by
  have sizes :
      ('-' :: ((hexDigits first).drop start).take length).length =
        ('-' :: ((hexDigits second).drop start).take length).length := by
    rw [List.length_cons, List.length_cons, length_group first small,
      length_group second small]
  rcases List.append_inj' same sizes with ⟨earlier, last⟩
  exact ⟨earlier, (List.cons.inj last).2⟩

theorem uuidText_injective : Function.Injective uuidText := by
  intro first second same
  have texts := congrArg String.toList same
  rw [toList_uuidText, toList_uuidText] at texts
  rcases append_group_inj (by decide) texts with ⟨four, fifth⟩
  rcases append_group_inj (by decide) four with ⟨three, fourth⟩
  rcases append_group_inj (by decide) three with ⟨two, third⟩
  rcases append_group_inj (by decide) two with ⟨one, other⟩
  apply hexDigits_injective
  rw [← groups_append _ (length_hexDigits first),
    ← groups_append _ (length_hexDigits second), one, other, third, fourth,
    fifth]

end Trackward.ChainCore.UuidTexts
