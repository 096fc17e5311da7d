import Trackward.Lib.Octets
import Mathlib.Data.List.Lex
import Mathlib.Data.String.Basic
import Mathlib.Tactic.SplitIfs

/-!
# Orders of encoded texts

Texts are ordered by their characters, by the bytes of UTF-8 or by the units of
UTF-16.  Each is the lexicographic order of a list in which every character is
replaced by a short word, so two texts are ordered the way the words of the
first characters in which they differ are.

UTF-8 keeps the order of the characters.  UTF-16 does not: a character above
U+FFFF comes before the characters from U+E000 to U+FFFF, and this is the only
difference.
-/

namespace Trackward.Lib.TextOrders

open Trackward.Lib.Octets

variable {α σ : Type}

/-! ## First differences -/

/-- The first entries in which two lists differ. -/
def firstDifference [DecidableEq α] : List α → List α → Option (α × α)
  | item :: items, item' :: items' =>
      if item = item' then firstDifference items items'
      else some (item, item')
  | _, _ => none

/-- The first word comes before the second one whatever follows them. -/
def Below [LinearOrder σ] (word word' : List σ) : Prop :=
  ∀ rest rest', word ++ rest < word' ++ rest'

section FirstDifference

variable [LinearOrder α] [LinearOrder σ] {encode : α → List σ}
  {items items' : List α} {item item' : α}

/-- Lists without a difference grow out of each other. -/
theorem grown_of_firstDifference
    (same : firstDifference items items' = none) :
    items = items' ∨
      (∃ item rest, items' = items ++ item :: rest) ∨
        ∃ item rest, items = items' ++ item :: rest := by
  induction items generalizing items' with
  | nil =>
      cases items' with
      | nil => exact Or.inl rfl
      | cons item rest => exact Or.inr (Or.inl ⟨item, rest, rfl⟩)
  | cons item items induction =>
      cases items' with
      | nil => exact Or.inr (Or.inr ⟨item, items, rfl⟩)
      | cons item' items' =>
          rw [firstDifference] at same
          split at same
          case isFalse other => cases same
          case isTrue equal =>
              subst equal
              rcases induction same with rfl | ⟨next, rest, rfl⟩ |
                ⟨next, rest, rfl⟩
              · exact Or.inl rfl
              · exact Or.inr (Or.inl ⟨next, rest, rfl⟩)
              · exact Or.inr (Or.inr ⟨next, rest, rfl⟩)

/-- Lists with a difference share what comes before it. -/
theorem split_of_firstDifference
    (differ : firstDifference items items' = some (item, item')) :
    item ≠ item' ∧
      ∃ common rest rest',
        items = common ++ item :: rest ∧
          items' = common ++ item' :: rest' := by
  induction items generalizing items' with
  | nil => cases differ
  | cons first items induction =>
      cases items' with
      | nil => cases differ
      | cons first' items' =>
          rw [firstDifference] at differ
          split at differ
          case isTrue equal =>
              subst equal
              rcases induction differ with
                ⟨other, common, rest, rest', rfl, rfl⟩
              exact ⟨other, first :: common, rest, rest', rfl, rfl⟩
          case isFalse other =>
              cases differ
              exact ⟨other, [], items, items', rfl, rfl⟩

theorem append_lt_append {common rest rest' : List σ} (less : rest < rest') :
    common ++ rest < common ++ rest' :=
  List.Lex.append_left (· < ·) less common

omit [LinearOrder α] in
/-- A list comes before the lists that grow out of it. -/
theorem flatMap_lt_grown (nonempty : ∀ item, encode item ≠ [])
    (items : List α) (item : α) (rest : List α) :
    items.flatMap encode < (items ++ item :: rest).flatMap encode := by
  have longer : [] < (item :: rest).flatMap encode := by
    rw [List.flatMap_cons]
    cases word : encode item with
    | nil => exact absurd word (nonempty item)
    | cons head tail => exact List.Lex.nil
  have grown :
      items.flatMap encode ++ [] <
        items.flatMap encode ++ (item :: rest).flatMap encode :=
    append_lt_append longer
  rwa [List.append_nil, ← List.flatMap_append] at grown

/-- The words of the first difference decide. -/
theorem flatMap_lt_of_below
    (differ : firstDifference items items' = some (item, item'))
    (below : Below (encode item) (encode item')) :
    items.flatMap encode < items'.flatMap encode := by
  rcases split_of_firstDifference differ with
    ⟨_, common, rest, rest', rfl, rfl⟩
  rw [List.flatMap_append, List.flatMap_append, List.flatMap_cons,
    List.flatMap_cons]
  exact append_lt_append (below _ _)

theorem firstDifference_swap
    (differ : firstDifference items items' = some (item, item')) :
    firstDifference items' items = some (item', item) := by
  induction items generalizing items' with
  | nil => cases differ
  | cons first items induction =>
      cases items' with
      | nil => cases differ
      | cons first' items' =>
          rw [firstDifference] at differ ⊢
          split at differ
          case isTrue equal =>
              rw [if_pos equal.symm]
              exact induction differ
          case isFalse other =>
              cases differ
              rw [if_neg fun equal => other equal.symm]

/-- Lists are ordered like the first entries in which they differ. -/
theorem lt_of_firstDifference
    (differ : firstDifference items items' = some (item, item'))
    (less : item < item') : items < items' := by
  have single : Below [item] [item'] := by
    intro rest rest'
    exact List.Lex.rel less
  have encoded :
      (items.flatMap fun item => [item]) <
        items'.flatMap fun item => [item] :=
    flatMap_lt_of_below differ single
  simpa using encoded

/-- The words keep the order of lists if they keep that of the difference. -/
theorem flatMap_lt_of_lt (nonempty : ∀ item, encode item ≠ [])
    (keeps :
      ∀ item item', firstDifference items items' = some (item, item') →
        item < item' → Below (encode item) (encode item'))
    (less : items < items') :
    items.flatMap encode < items'.flatMap encode := by
  cases differ : firstDifference items items' with
  | none =>
      rcases grown_of_firstDifference differ with rfl | ⟨item, rest, rfl⟩ |
        ⟨item, rest, rfl⟩
      · exact absurd less (lt_irrefl _)
      · exact flatMap_lt_grown nonempty items item rest
      · have more :=
          flatMap_lt_grown (fun item => List.cons_ne_nil item [])
            items' item rest
        simp only [List.flatMap_singleton'] at more
        exact absurd less more.not_gt
  | some pair =>
      rcases pair with ⟨item, item'⟩
      rcases lt_trichotomy item item' with before | same | after
      · exact flatMap_lt_of_below differ (keeps item item' differ before)
      · exact absurd same (split_of_firstDifference differ).1
      · have more :=
          lt_of_firstDifference (firstDifference_swap differ) after
        exact absurd less more.not_gt

end FirstDifference

/-! ## UTF-8 -/

/-- The bytes of a character as numbers. -/
def utf8Word (symbol : Char) : List Nat :=
  (String.utf8EncodeChar symbol).map UInt8.toNat

/-- The bytes of a text as numbers. -/
def utf8Units (text : String) : List Nat :=
  text.toList.flatMap utf8Word

theorem utf8Units_eq (text : String) :
    utf8Units text = (utf8 text).map UInt8.toNat := by
  rw [utf8_eq_flatMap, List.map_flatMap]
  rfl

/-- The code point of a character is below the end of Unicode. -/
theorem toNat_lt (symbol : Char) : symbol.toNat < 0x110000 := by
  rcases symbol.valid with low | high
  · exact Nat.lt_trans low (by decide)
  · exact high.2

/-- The bytes of a code point, by its size. -/
theorem utf8Word_eq (symbol : Char) :
    utf8Word symbol =
      if symbol.toNat ≤ 0x7f then [symbol.toNat]
      else if symbol.toNat ≤ 0x7ff then
        [symbol.toNat / 64 + 0xc0, symbol.toNat % 64 + 0x80]
      else if symbol.toNat ≤ 0xffff then
        [symbol.toNat / 4096 + 0xe0, symbol.toNat / 64 % 64 + 0x80,
          symbol.toNat % 64 + 0x80]
      else
        [symbol.toNat / 262144 + 0xf0, symbol.toNat / 4096 % 64 + 0x80,
          symbol.toNat / 64 % 64 + 0x80, symbol.toNat % 64 + 0x80] := by
  have bound := toNat_lt symbol
  have value : symbol.val.toNat = symbol.toNat := rfl
  unfold utf8Word String.utf8EncodeChar
  simp only [value]
  split_ifs <;>
    simp only [List.map_cons, List.map_nil, UInt8.toNat_ofNat',
      List.cons.injEq, and_true] <;>
    omega

theorem cons_lt_cons [LinearOrder σ] {head head' : σ} {tail tail' : List σ}
    (less : head < head' ∨ head = head' ∧ tail < tail') :
    head :: tail < head' :: tail' := by
  rcases less with before | ⟨rfl, later⟩
  · exact List.Lex.rel before
  · exact List.Lex.cons later

/-- UTF-8 keeps the order of two characters. -/
theorem utf8Word_below {symbol symbol' : Char} (less : symbol < symbol') :
    Below (utf8Word symbol) (utf8Word symbol') := by
  intro rest rest'
  have less' : symbol.toNat < symbol'.toNat := less
  have bound := toNat_lt symbol'
  rw [utf8Word_eq, utf8Word_eq]
  generalize symbol.toNat = value at *
  generalize symbol'.toNat = value' at *
  split_ifs
  all_goals try omega
  all_goals simp only [List.cons_append, List.nil_append]
  -- The first byte decides, unless both characters take the same length.
  all_goals try exact cons_lt_cons (Or.inl (by omega))
  · apply cons_lt_cons
    by_cases first : value / 64 < value' / 64
    · exact Or.inl (by omega)
    · refine Or.inr ⟨by omega, cons_lt_cons (Or.inl (by omega))⟩
  · apply cons_lt_cons
    by_cases first : value / 4096 < value' / 4096
    · exact Or.inl (by omega)
    refine Or.inr ⟨by omega, cons_lt_cons ?_⟩
    by_cases second : value / 64 < value' / 64
    · exact Or.inl (by omega)
    · refine Or.inr ⟨by omega, cons_lt_cons (Or.inl (by omega))⟩
  · apply cons_lt_cons
    by_cases first : value / 262144 < value' / 262144
    · exact Or.inl (by omega)
    refine Or.inr ⟨by omega, cons_lt_cons ?_⟩
    by_cases second : value / 4096 < value' / 4096
    · exact Or.inl (by omega)
    refine Or.inr ⟨by omega, cons_lt_cons ?_⟩
    by_cases third : value / 64 < value' / 64
    · exact Or.inl (by omega)
    · refine Or.inr ⟨by omega, cons_lt_cons (Or.inl (by omega))⟩

theorem utf8Word_ne_nil (symbol : Char) : utf8Word symbol ≠ [] := by
  rw [utf8Word_eq]
  split_ifs <;> exact List.cons_ne_nil _ _

/-- The order of texts is the order of their bytes. -/
theorem utf8Units_lt_iff {first second : String} :
    utf8Units first < utf8Units second ↔ first < second := by
  have strict : StrictMono utf8Units := by
    intro first second less
    apply flatMap_lt_of_lt utf8Word_ne_nil
    · intro symbol symbol' _
      exact utf8Word_below
    · exact String.lt_iff_toList_lt.mp less
  exact strict.lt_iff_lt

/-! ## UTF-16 -/

/-- The units of a character. -/
def utf16Word (symbol : Char) : List Nat :=
  if symbol.toNat < 0x10000 then [symbol.toNat]
  else
    [0xD800 + (symbol.toNat - 0x10000) / 0x400,
      0xDC00 + (symbol.toNat - 0x10000) % 0x400]

/-- The units of a text. -/
def utf16Units (text : String) : List Nat :=
  text.toList.flatMap utf16Word

/-- A character after the surrogates and one beyond U+FFFF. -/
def Swapped (symbol symbol' : Char) : Prop :=
  0xE000 ≤ symbol.toNat ∧ symbol.toNat < 0x10000 ∧
    0x10000 ≤ symbol'.toNat

instance (symbol symbol' : Char) : Decidable (Swapped symbol symbol') :=
  inferInstanceAs (Decidable (_ ∧ _))

/-- Two texts that UTF-16 orders the other way round. -/
def Misordered (first second : String) : Prop :=
  ∃ pair ∈ firstDifference first.toList second.toList,
    Swapped pair.1 pair.2 ∨ Swapped pair.2 pair.1

theorem utf16Word_ne_nil (symbol : Char) : utf16Word symbol ≠ [] := by
  unfold utf16Word
  split_ifs <;> exact List.cons_ne_nil _ _

/-- UTF-16 keeps the order of two characters that it does not swap. -/
theorem utf16Word_below {symbol symbol' : Char} (less : symbol < symbol')
    (kept : ¬ Swapped symbol symbol') :
    Below (utf16Word symbol) (utf16Word symbol') := by
  intro rest rest'
  have less' : symbol.toNat < symbol'.toNat := less
  have valid : symbol.toNat < 0xD800 ∨ 0xDFFF < symbol.toNat := by
    rcases symbol.valid with low | high
    · exact Or.inl low
    · exact Or.inr high.1
  unfold Swapped at kept
  unfold utf16Word
  generalize symbol.toNat = value at *
  generalize symbol'.toNat = value' at *
  split_ifs
  all_goals try omega
  all_goals simp only [List.cons_append, List.nil_append]
  all_goals try exact cons_lt_cons (Or.inl (by omega))
  apply cons_lt_cons
  by_cases high : (value - 0x10000) / 0x400 < (value' - 0x10000) / 0x400
  · exact Or.inl (by omega)
  · refine Or.inr ⟨by omega, cons_lt_cons (Or.inl (by omega))⟩

/-- UTF-16 swaps two characters. -/
theorem utf16Word_below_of_swapped {symbol symbol' : Char}
    (swapped : Swapped symbol symbol') :
    Below (utf16Word symbol') (utf16Word symbol) := by
  intro rest rest'
  rcases swapped with ⟨low, high, beyond⟩
  have bound := toNat_lt symbol'
  rw [utf16Word, utf16Word, if_pos high, if_neg (by omega)]
  exact cons_lt_cons (Or.inl (by omega))

theorem Misordered.symm {first second : String}
    (misordered : Misordered first second) : Misordered second first := by
  rcases misordered with ⟨pair, differ, either⟩
  exact ⟨(pair.2, pair.1), firstDifference_swap differ, either.symm⟩

theorem firstDifference_self [DecidableEq α] (items : List α) :
    firstDifference items items = none := by
  induction items with
  | nil => rfl
  | cons item items induction => simpa [firstDifference] using induction

theorem not_misordered_self (text : String) : ¬ Misordered text text := by
  rintro ⟨pair, differ, _⟩
  rw [firstDifference_self] at differ
  cases differ

theorem utf16Units_lt_of_lt {first second : String}
    (kept : ¬ Misordered first second) (less : first < second) :
    utf16Units first < utf16Units second := by
  apply flatMap_lt_of_lt utf16Word_ne_nil
  · intro symbol symbol' differ below
    apply utf16Word_below below
    intro swapped
    exact kept ⟨(symbol, symbol'), differ, Or.inl swapped⟩
  · exact String.lt_iff_toList_lt.mp less

/-- UTF-16 keeps the order of texts that are not misordered. -/
theorem utf16Units_lt_iff {first second : String}
    (kept : ¬ Misordered first second) :
    utf16Units first < utf16Units second ↔ first < second := by
  constructor
  · intro less
    rcases lt_trichotomy first second with before | rfl | after
    · exact before
    · exact absurd less (lt_irrefl _)
    · have more :=
        utf16Units_lt_of_lt (fun other => kept other.symm) after
      exact absurd less more.not_gt
  · exact utf16Units_lt_of_lt kept

/-- UTF-16 reverses the order of misordered texts. -/
theorem utf16Units_lt_of_gt {first second : String}
    (misordered : Misordered first second) (greater : second < first) :
    utf16Units first < utf16Units second := by
  rcases misordered with ⟨⟨symbol, symbol'⟩, differ, either⟩
  rcases either with swapped | swapped
  · have less : symbol < symbol' :=
      show symbol.toNat < symbol'.toNat from
        Nat.lt_of_lt_of_le swapped.2.1 swapped.2.2
    have before : first < second :=
      String.lt_iff_toList_lt.mpr (lt_of_firstDifference differ less)
    exact absurd greater before.not_gt
  · exact flatMap_lt_of_below differ (utf16Word_below_of_swapped swapped)

/-- Texts that both orders list in the same way are not misordered. -/
theorem not_misordered_of_le {first second : String}
    (before : first ≤ second)
    (before' : utf16Units first ≤ utf16Units second) :
    ¬ Misordered first second := by
  intro misordered
  rcases before.lt_or_eq with less | rfl
  · exact absurd before' (utf16Units_lt_of_gt misordered.symm less).not_ge
  · exact not_misordered_self first misordered

end Trackward.Lib.TextOrders
