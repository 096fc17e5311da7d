import Trackward.Lib.Octets
import Mathlib.Data.List.Forall2
import Mathlib.Tactic.Common

/-!
# Codes that can be read back from a stream

A `Code` relates values to the words that stand for them; it may be partial
and it may write several values by one word.  A value is delimited by a code
when its word can be told apart from every other word at the front of a
stream, up to a relation `same` on values, whatever comes after it, as long as
what comes after satisfies `follow`.

Delimitation is stated for one value at a time, so that a code of nested data
can be treated by induction on the data.  The rules below combine codes in the
ways byte formats and texts do: numbers of a fixed width, length prefixes,
sequences of known length, separated sequences with a closing symbol, and runs
of symbols of one class.
-/

namespace Trackward.Lib.PrefixCodes

open Trackward.Lib.Octets

variable {σ α : Type}

/-- The words a value may be written as. -/
abbrev Code (σ α : Type) :=
  α → List σ → Prop

/-- The word of `first` is told apart from other words in front of a stream. -/
def Delimits
    (code : Code σ α) (same : α → α → Prop)
    (follow : List σ → Prop) (first : α) : Prop :=
  ∀ word second word' rest rest',
    code first word →
      code second word' →
        follow rest →
          follow rest' →
            word ++ rest = word' ++ rest' →
              same first second ∧ rest = rest'

/-- Nothing is asked of what follows. -/
def anything : List σ → Prop :=
  fun _ => True

/-! ## Sequences -/

/--
A sequence of known length is delimited by its items.
-/
theorem sequence_inj
    {code : Code σ α} {same : α → α → Prop}
    {items items' : List α} {words words' : List (List σ)}
    {rest rest' : List σ}
    (delimited :
      ∀ item ∈ items, Delimits code same anything item)
    (written : List.Forall₂ code items words)
    (written' : List.Forall₂ code items' words')
    (lengths : items.length = items'.length)
    (streams : words.flatten ++ rest = words'.flatten ++ rest') :
    List.Forall₂ same items items' ∧ rest = rest' := by
  induction written generalizing items' words' with
  | nil =>
      cases written' with
      | nil => exact ⟨.nil, by simpa using streams⟩
      | cons _ _ => simp at lengths
  | cons head tail induction =>
      cases written' with
      | nil => simp at lengths
      | cons head' tail' =>
          simp only [List.flatten_cons, List.append_assoc] at streams
          have first :=
            delimited _ List.mem_cons_self _ _ _ _ _ head head'
              trivial trivial streams
          have others :=
            induction
              (fun item member =>
                delimited item (List.mem_cons_of_mem _ member))
              tail' (by simpa using lengths) first.2
          exact ⟨.cons first.1 others.1, others.2⟩

/--
A sequence with a closing symbol is delimited by its items, if no item starts
with the closing symbol.
-/
theorem terminated_inj
    {code : Code σ α} {same : α → α → Prop} {closing : σ}
    {items items' : List α} {words words' : List (List σ)}
    {rest rest' : List σ}
    (opens :
      ∀ item word, code item word →
        ∃ head tail, word = head :: tail ∧ head ≠ closing)
    (delimited :
      ∀ item ∈ items, Delimits code same anything item)
    (written : List.Forall₂ code items words)
    (written' : List.Forall₂ code items' words')
    (streams :
      words.flatten ++ closing :: rest =
        words'.flatten ++ closing :: rest') :
    List.Forall₂ same items items' ∧ rest = rest' := by
  induction written generalizing items' words' with
  | nil =>
      cases written' with
      | nil => exact ⟨.nil, by simpa using streams⟩
      | cons head' tail' =>
          rcases opens _ _ head' with ⟨symbol, others, rfl, clash⟩
          simp only [List.flatten_nil, List.flatten_cons, List.nil_append,
            List.cons_append, List.cons.injEq] at streams
          exact absurd streams.1.symm clash
  | cons head tail induction =>
      cases written' with
      | nil =>
          rcases opens _ _ head with ⟨symbol, others, rfl, clash⟩
          simp only [List.flatten_nil, List.flatten_cons, List.nil_append,
            List.cons_append, List.cons.injEq] at streams
          exact absurd streams.1 clash
      | cons head' tail' =>
          simp only [List.flatten_cons, List.append_assoc] at streams
          have first :=
            delimited _ List.mem_cons_self _ _ _ _ _ head head'
              trivial trivial streams
          have others :=
            induction
              (fun item member =>
                delimited item (List.mem_cons_of_mem _ member))
              tail' first.2
          exact ⟨.cons first.1 others.1, others.2⟩

/-- The words of a list, with a separator between neighbours. -/
def separated (separator : σ) : List (List σ) → List σ
  | [] => []
  | [word] => word
  | word :: next :: words =>
      word ++ separator :: separated separator (next :: words)

/-- Separated words start like the first of them. -/
theorem separated_cons (separator symbol : σ) (others : List σ)
    (words : List (List σ)) :
    ∃ tail, separated separator ((symbol :: others) :: words) =
      symbol :: tail := by
  cases words with
  | nil => exact ⟨others, rfl⟩
  | cons next words => exact ⟨_, rfl⟩

/--
A separated sequence with a closing symbol is delimited by its items, if no
item starts with the closing symbol.
-/
theorem separated_inj
    {code : Code σ α} {same : α → α → Prop} {follow : List σ → Prop}
    {separator closing : σ}
    {items items' : List α} {words words' : List (List σ)}
    {rest rest' : List σ}
    (distinct : separator ≠ closing)
    (beforeSeparator : ∀ rest, follow (separator :: rest))
    (beforeClosing : ∀ rest, follow (closing :: rest))
    (opens :
      ∀ item word, code item word →
        ∃ head tail, word = head :: tail ∧ head ≠ closing)
    (delimited : ∀ item ∈ items, Delimits code same follow item)
    (written : List.Forall₂ code items words)
    (written' : List.Forall₂ code items' words')
    (streams :
      separated separator words ++ closing :: rest =
        separated separator words' ++ closing :: rest') :
    List.Forall₂ same items items' ∧ rest = rest' := by
  induction written generalizing items' words' with
  | nil =>
      cases written' with
      | nil => exact ⟨.nil, by simpa [separated] using streams⟩
      | cons head' tail' =>
          rcases opens _ _ head' with ⟨symbol, others, rfl, clash⟩
          rcases separated_cons separator symbol others _ with
            ⟨tail, starts⟩
          rw [starts, separated, List.nil_append, List.cons_append,
            List.cons.injEq] at streams
          exact absurd streams.1.symm clash
  | cons head tail induction =>
      have here := delimited _ List.mem_cons_self
      have later :
          ∀ item ∈ _, Delimits code same follow item :=
        fun item member => delimited item (List.mem_cons_of_mem _ member)
      cases written' with
      | nil =>
          rcases opens _ _ head with ⟨symbol, others, rfl, clash⟩
          rcases separated_cons separator symbol others _ with
            ⟨tail, starts⟩
          rw [starts, separated, List.nil_append, List.cons_append,
            List.cons.injEq] at streams
          exact absurd streams.1 clash
      | cons head' tail' =>
          cases tail with
          | nil =>
              cases tail' with
              | nil =>
                  have first :=
                    here _ _ _ _ _ head head' (beforeClosing _)
                      (beforeClosing _) streams
                  exact
                    ⟨.cons first.1 .nil, (List.cons.inj first.2).2⟩
              | cons _ _ =>
                  simp only [separated, List.append_assoc,
                    List.cons_append] at streams
                  have first :=
                    here _ _ _ _ _ head head' (beforeClosing _)
                      (beforeSeparator _) streams
                  exact
                    absurd (List.cons.inj first.2).1.symm distinct
          | cons next nexts =>
              cases tail' with
              | nil =>
                  simp only [separated, List.append_assoc,
                    List.cons_append] at streams
                  have first :=
                    here _ _ _ _ _ head head' (beforeSeparator _)
                      (beforeClosing _) streams
                  exact absurd (List.cons.inj first.2).1 distinct
              | cons next' nexts' =>
                  simp only [separated, List.append_assoc,
                    List.cons_append] at streams
                  have first :=
                    here _ _ _ _ _ head head' (beforeSeparator _)
                      (beforeSeparator _) streams
                  have others :=
                    induction later (.cons next' nexts')
                      (List.cons.inj first.2).2
                  exact ⟨.cons first.1 others.1, others.2⟩

/-! ## Runs of one class of symbols -/

/-- The stream does not go on with a symbol of the class. -/
def Stops (inClass : σ → Prop) (rest : List σ) : Prop :=
  ∀ symbol tail, rest = symbol :: tail → ¬ inClass symbol

theorem Stops.cons {inClass : σ → Prop} {symbol : σ} {rest : List σ}
    (outside : ¬ inClass symbol) : Stops inClass (symbol :: rest) := by
  intro head tail same
  rw [List.cons.injEq] at same
  rw [← same.1]
  exact outside

/-- A maximal run of symbols of one class is read back from a stream. -/
theorem run_append_inj
    {inClass : σ → Prop} {word word' rest rest' : List σ}
    (run : ∀ symbol ∈ word, inClass symbol)
    (run' : ∀ symbol ∈ word', inClass symbol)
    (stops : Stops inClass rest) (stops' : Stops inClass rest')
    (streams : word ++ rest = word' ++ rest') :
    word = word' ∧ rest = rest' := by
  induction word generalizing word' with
  | nil =>
      cases word' with
      | nil => exact ⟨rfl, streams⟩
      | cons symbol others =>
          exact absurd (run' symbol List.mem_cons_self)
            (stops symbol _ streams)
  | cons symbol others induction =>
      cases word' with
      | nil =>
          exact absurd (run symbol List.mem_cons_self)
            (stops' symbol _ streams.symm)
      | cons symbol' others' =>
          simp only [List.cons_append, List.cons.injEq] at streams
          have tails :=
            induction
              (fun other member => run other (List.mem_cons_of_mem _ member))
              (fun other member => run' other (List.mem_cons_of_mem _ member))
              streams.2
          exact ⟨by rw [streams.1, tails.1], tails.2⟩

/-- The symbols of decimal numerals. -/
def IsDigit (symbol : Char) : Prop :=
  symbol.isDigit = true

/-- A decimal numeral is read back up to the first symbol that is no digit. -/
theorem toDigits_append_inj
    {first second : Nat} {rest rest' : List Char}
    (stops : Stops IsDigit rest) (stops' : Stops IsDigit rest')
    (streams :
      Nat.toDigits 10 first ++ rest = Nat.toDigits 10 second ++ rest') :
    first = second ∧ rest = rest' := by
  have digits : ∀ value, ∀ symbol ∈ Nat.toDigits 10 value, IsDigit symbol := by
    intro value symbol member
    exact Nat.isDigit_of_mem_toDigits (by decide) (by decide) member
  have runs :=
    run_append_inj (digits first) (digits second) stops stops' streams
  have values := congrArg (Nat.ofDigitChars 10 · 0) runs.1
  simp only [Nat.ofDigitChars_ten_toDigits] at values
  exact ⟨values, runs.2⟩

/-! ## Numbers and length prefixes -/

/-- A number of fixed width is read back from a stream. -/
theorem bigEndian_append_inj
    {width first second : Nat} {rest rest' : Bytes}
    (fits : first < 256 ^ width) (fits' : second < 256 ^ width)
    (streams :
      bigEndian width first ++ rest = bigEndian width second ++ rest') :
    first = second ∧ rest = rest' := by
  have split := List.append_inj streams (by simp)
  exact ⟨bigEndian_inj fits fits' split.1, split.2⟩

/-- A byte string after its length in a fixed width. -/
def lengthPrefixed (width : Nat) (bytes : Bytes) : Bytes :=
  bigEndian width bytes.length ++ bytes

/-- A byte string whose length fits its prefix is read back from a stream. -/
theorem lengthPrefixed_append_inj
    {width : Nat} {first second rest rest' : Bytes}
    (fits : first.length < 256 ^ width)
    (fits' : second.length < 256 ^ width)
    (streams :
      lengthPrefixed width first ++ rest =
        lengthPrefixed width second ++ rest') :
    first = second ∧ rest = rest' := by
  simp only [lengthPrefixed, List.append_assoc] at streams
  have lengths := bigEndian_append_inj fits fits' streams
  exact List.append_inj lengths.2 lengths.1

end Trackward.Lib.PrefixCodes
