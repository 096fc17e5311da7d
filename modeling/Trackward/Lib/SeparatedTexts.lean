import Trackward.Lib.PrefixCodes
import Mathlib.Data.List.TakeWhile

/-!
# Separated texts

Many formats write a sequence as its parts with a separator between neighbours
and a closing symbol at the end, and allow blanks around each part.  This module
has the texts of such sequences, relative to the code of one part, and a reader
for them, relative to a reader of one part.  The reader is complete: it reads
every text of the sequence back, if the reader of the parts does.
-/

namespace Trackward.Lib.SeparatedTexts

open Trackward.Lib.PrefixCodes

variable {σ α : Type}

/-- The texts of nonempty sequences, with blanks around each part. -/
inductive SeparatedText
    (blank : List σ → Prop) (separator : σ) (code : Code σ α) :
    List α → List σ → Prop where
  | last {part : α} {before word after : List σ}
      (opens : blank before) (written : code part word)
      (closes : blank after) :
      SeparatedText blank separator code [part] (before ++ (word ++ after))
  | more {part : α} {parts : List α} {before word after text : List σ}
      (opens : blank before) (written : code part word)
      (closes : blank after)
      (others : SeparatedText blank separator code parts text) :
      SeparatedText blank separator code (part :: parts)
        (before ++ (word ++ (after ++ separator :: text)))

namespace SeparatedText

variable {blank blank' : List σ → Prop} {separator : σ}
  {code code' : Code σ α} {parts : List α} {text : List σ}

/-- More blanks and more words for the parts allow more texts. -/
theorem mono
    (moreBlanks : ∀ between, blank between → blank' between)
    (written : SeparatedText blank separator code parts text)
    (moreWords :
      ∀ part ∈ parts, ∀ word, code part word → code' part word) :
    SeparatedText blank' separator code' parts text := by
  induction written with
  | last opens word closes =>
      apply last
      · exact moreBlanks _ opens
      · exact moreWords _ List.mem_cons_self _ word
      · exact moreBlanks _ closes
  | more opens word closes others induction =>
      apply more
      · exact moreBlanks _ opens
      · exact moreWords _ List.mem_cons_self _ word
      · exact moreBlanks _ closes
      · exact
          induction fun part member =>
            moreWords part (List.mem_cons_of_mem _ member)

/-- Words with a separator between neighbours are a text without blanks. -/
theorem of_separated
    (none : blank []) {words : List (List σ)}
    (written : List.Forall₂ code parts words) (nonempty : parts ≠ []) :
    SeparatedText blank separator code parts
      (separated separator words) := by
  induction written with
  | nil => exact absurd rfl nonempty
  | @cons part word parts words here later induction =>
      cases later with
      | nil =>
          have only :
              SeparatedText blank separator code [part]
                ([] ++ (word ++ [])) :=
            last none here none
          rwa [List.nil_append, List.append_nil] at only
      | cons next later =>
          exact more none here none (induction (List.cons_ne_nil _ _))

/-- A text of a nonempty sequence starts like its first part. -/
theorem starts
    (written : SeparatedText blank separator code parts text) :
    ∃ before word rest, ∃ part ∈ parts,
      blank before ∧ code part word ∧ text = before ++ (word ++ rest) := by
  cases written with
  | last opens here closes =>
      exact ⟨_, _, _, _, List.mem_cons_self, opens, here, rfl⟩
  | more opens here closes others =>
      exact ⟨_, _, _, _, List.mem_cons_self, opens, here, rfl⟩

end SeparatedText

/-! ## The reader -/

section Reader

variable [DecidableEq σ] (isBlank : σ → Bool) (separator closing : σ)
  (read : List σ → Option (α × List σ))

/-- Parts up to the closing symbol; at least one is expected. -/
def readParts : Nat → List σ → Option (List α × List σ)
  | 0, _ => none
  | fuel + 1, stream =>
      match read (stream.dropWhile isBlank) with
      | none => none
      | some (part, rest) =>
          match rest.dropWhile isBlank with
          | [] => none
          | symbol :: rest =>
              if symbol = closing then some ([part], rest)
              else if symbol = separator then
                (readParts fuel rest).map fun others =>
                  (part :: others.1, others.2)
              else none

/-- A sequence up to the closing symbol, which may come at once. -/
def readSequence (stream : List σ) : Option (List α × List σ) :=
  match stream.dropWhile isBlank with
  | [] => none
  | symbol :: rest =>
      if symbol = closing then some ([], rest)
      else readParts isBlank separator closing read stream.length stream

end Reader

/-- Blanks are passed over up to what is none. -/
theorem dropWhile_blanks
    {isBlank : σ → Bool} {between : List σ} {symbol : σ} {rest : List σ}
    (blanks : ∀ symbol ∈ between, isBlank symbol = true)
    (stops : isBlank symbol = false) :
    (between ++ symbol :: rest).dropWhile isBlank = symbol :: rest := by
  rw [List.dropWhile_append_of_pos blanks]
  exact List.dropWhile_cons_of_neg (by simp [stops])

/-- A maximal run of symbols of one class is told from what follows. -/
theorem takeWhile_run
    {inClass : σ → Bool} {word rest : List σ}
    (run : ∀ symbol ∈ word, inClass symbol = true)
    (stops : Stops (fun symbol => inClass symbol = true) rest) :
    (word ++ rest).takeWhile inClass = word ∧
      (word ++ rest).dropWhile inClass = rest := by
  rw [List.takeWhile_append_of_pos run, List.dropWhile_append_of_pos run]
  cases rest with
  | nil => exact ⟨List.append_nil word, rfl⟩
  | cons symbol others =>
      have outside := stops symbol others rfl
      simp [outside]

/-! ## Completeness -/

/-- The separator and the closing symbol are no blanks, and not the same. -/
structure Delimiters (isBlank : σ → Bool) (separator closing : σ) :
    Prop where
  distinct : separator ≠ closing
  separator_not_blank : isBlank separator = false
  closing_not_blank : isBlank closing = false

/-- What stands around the parts may follow a part. -/
def Surrounds
    (isBlank : σ → Bool) (separator closing : σ)
    (follow : List σ → Prop) : Prop :=
  ∀ symbol rest,
    isBlank symbol = true ∨ symbol = separator ∨ symbol = closing →
      follow (symbol :: rest)

/-- What follows a part when blanks come before one more symbol. -/
theorem Surrounds.after_blanks
    {isBlank : σ → Bool} {separator closing : σ} {follow : List σ → Prop}
    (surrounds : Surrounds isBlank separator closing follow)
    {after rest : List σ} {symbol : σ}
    (blanks : ∀ symbol ∈ after, isBlank symbol = true)
    (delimits : symbol = separator ∨ symbol = closing) :
    follow (after ++ symbol :: rest) := by
  cases after with
  | nil => exact surrounds _ _ (Or.inr delimits)
  | cons first others =>
      exact surrounds _ _ (Or.inl (blanks first List.mem_cons_self))

section Complete

variable [DecidableEq σ] {isBlank : σ → Bool} {separator closing : σ}
  {read : List σ → Option (α × List σ)}
  {blank : List σ → Prop} {code : Code σ α} {follow : List σ → Prop}
  {parts : List α} {text : List σ} {size fuel : Nat}

/-- A nonempty sequence is read back up to its closing symbol. -/
theorem readParts_of_separatedText
    (delimiters : Delimiters isBlank separator closing)
    (surrounds : Surrounds isBlank separator closing follow)
    (blanks :
      ∀ between, blank between →
        ∀ symbol ∈ between, isBlank symbol = true)
    (opens :
      ∀ part word, code part word →
        ∃ head tail, word = head :: tail ∧ isBlank head = false)
    (written : SeparatedText blank separator code parts text)
    (readable :
      ∀ part ∈ parts, ∀ word rest,
        code part word → word.length ≤ size → follow rest →
          read (word ++ rest) = some (part, rest))
    (rest : List σ) (fits : text.length ≤ size)
    (enough : text.length < fuel) :
    readParts isBlank separator closing read fuel
        (text ++ closing :: rest) =
      some (parts, rest) := by
  induction written generalizing fuel with
  | @last part before word after blankBefore here blankAfter =>
      cases fuel with
      | zero => cases enough
      | succ fuel =>
          have next : follow (after ++ closing :: rest) :=
            surrounds.after_blanks (blanks _ blankAfter) (Or.inr rfl)
          have short : word.length ≤ size := by
            simp only [List.length_append] at fits
            omega
          have found :=
            readable part List.mem_cons_self word _ here short next
          rcases opens part word here with ⟨head, tail, rfl, inner⟩
          rw [readParts, List.append_assoc, List.append_assoc,
            List.cons_append, dropWhile_blanks (blanks _ blankBefore) inner,
            ← List.cons_append, found]
          simp only [dropWhile_blanks (blanks _ blankAfter)
            delimiters.closing_not_blank, if_true]
  | @more part parts before word after text blankBefore here blankAfter
      others induction =>
      cases fuel with
      | zero => cases enough
      | succ fuel =>
          simp only [List.length_append, List.length_cons] at fits enough
          have next :
              follow (after ++ separator :: (text ++ closing :: rest)) :=
            surrounds.after_blanks (blanks _ blankAfter) (Or.inl rfl)
          have found :=
            readable part List.mem_cons_self word _ here (by omega) next
          have shorter : text.length < fuel := by omega
          have later :=
            induction
              (fun other member =>
                readable other (List.mem_cons_of_mem _ member))
              (by omega) shorter
          rcases opens part word here with ⟨head, tail, rfl, inner⟩
          have stream :
              before ++ (head :: tail ++ (after ++ separator :: text)) ++
                  closing :: rest =
                before ++ head :: (tail ++
                  (after ++ separator :: (text ++ closing :: rest))) := by
            simp
          rw [readParts, stream,
            dropWhile_blanks (blanks _ blankBefore) inner,
            ← List.cons_append, found]
          simp only [dropWhile_blanks (blanks _ blankAfter)
            delimiters.separator_not_blank, delimiters.distinct, if_false,
            if_true, later, Option.map_some]

/-- A nonempty sequence is read back. -/
theorem readSequence_of_separatedText
    (delimiters : Delimiters isBlank separator closing)
    (surrounds : Surrounds isBlank separator closing follow)
    (blanks :
      ∀ between, blank between →
        ∀ symbol ∈ between, isBlank symbol = true)
    (opens :
      ∀ part word, code part word →
        ∃ head tail, word = head :: tail ∧ isBlank head = false ∧
          head ≠ closing)
    (written : SeparatedText blank separator code parts text)
    (readable :
      ∀ part ∈ parts, ∀ word rest,
        code part word → word.length ≤ text.length → follow rest →
          read (word ++ rest) = some (part, rest))
    (rest : List σ) :
    readSequence isBlank separator closing read (text ++ closing :: rest) =
      some (parts, rest) := by
  have enough : text.length < (text ++ closing :: rest).length := by
    simp
  have parsed :=
    readParts_of_separatedText delimiters surrounds blanks
      (fun part word here => by
        rcases opens part word here with ⟨head, tail, same, inner, _⟩
        exact ⟨head, tail, same, inner⟩)
      written readable rest (Nat.le_refl _) enough
  rcases written.starts with
    ⟨before, word, others, part, _, blankBefore, here, rfl⟩
  rcases opens part word here with ⟨head, tail, rfl, inner, notClosing⟩
  have stream :
      before ++ (head :: tail ++ others) ++ closing :: rest =
        before ++ head :: (tail ++ others ++ closing :: rest) := by
    simp
  rw [readSequence]
  rw [stream] at parsed ⊢
  rw [dropWhile_blanks (blanks _ blankBefore) inner]
  simpa only [notClosing, if_false] using parsed

/-- An empty sequence is read back. -/
theorem readSequence_empty
    (delimiters : Delimiters isBlank separator closing) {between : List σ}
    (blanks : ∀ symbol ∈ between, isBlank symbol = true) (rest : List σ) :
    readSequence isBlank separator closing read
        (between ++ closing :: rest) =
      some ([], rest) := by
  rw [readSequence, dropWhile_blanks blanks delimiters.closing_not_blank]
  simp only [if_true]

end Complete

/-! ## Joined words -/

/-- Words with a separator and a space between neighbours. -/
def joined (separator space : σ) : List (List σ) → List σ
  | [] => []
  | [word] => word
  | word :: next :: words =>
      word ++ separator :: space :: joined separator space (next :: words)

section Joined

variable [DecidableEq σ] {isBlank : σ → Bool} {separator closing space : σ}
  {read : List σ → Option (α × List σ)} {follow : List σ → Prop}
  {ι : Type} {word : ι → List σ} {readAs : ι → Option α} {items : List ι}
  {fuel : Nat}

/--
Joined words are read one by one, and not at all if one of them is not.
-/
theorem readParts_joined
    (delimiters : Delimiters isBlank separator closing)
    (surrounds : Surrounds isBlank separator closing follow)
    (spaceBlank : isBlank space = true)
    (opens :
      ∀ item ∈ items, ∃ head tail, word item = head :: tail ∧
        isBlank head = false)
    (reads :
      ∀ item ∈ items, ∀ rest, follow rest →
        read (word item ++ rest) =
          (readAs item).map fun part => (part, rest))
    (nonempty : items ≠ []) {between : List σ}
    (blanks : ∀ symbol ∈ between, isBlank symbol = true) (rest : List σ)
    (enough : items.length ≤ fuel) :
    readParts isBlank separator closing read fuel
        (between ++
          (joined separator space (items.map word) ++ closing :: rest)) =
      (items.mapM readAs).map fun parts => (parts, rest) := by
  induction items generalizing fuel between with
  | nil => exact absurd rfl nonempty
  | cons item items induction =>
      cases fuel with
      | zero => cases enough
      | succ fuel =>
          rcases opens item List.mem_cons_self with ⟨head, tail, same, solid⟩
          have here := reads item List.mem_cons_self
          rw [same] at here
          cases items with
          | nil =>
              have next := here (closing :: rest)
                (surrounds _ _ (Or.inr (Or.inr rfl)))
              rw [List.map_singleton, joined, same, List.cons_append,
                readParts, dropWhile_blanks blanks solid,
                ← List.cons_append, next]
              cases value : readAs item with
              | none => simp [value]
              | some part =>
                  simp [value, delimiters.closing_not_blank]
          | cons second items =>
              have next := here
                (separator :: ([space] ++
                  (joined separator space ((second :: items).map word) ++
                    closing :: rest)))
                (surrounds _ _ (Or.inr (Or.inl rfl)))
              have others :=
                induction
                  (fun other member =>
                    opens other (List.mem_cons_of_mem _ member))
                  (fun other member =>
                    reads other (List.mem_cons_of_mem _ member))
                  (List.cons_ne_nil _ _)
                  (show ∀ symbol ∈ [space], isBlank symbol = true by
                    simpa using spaceBlank)
                  (Nat.le_of_succ_le_succ enough)
              have stream :
                  joined separator space
                        ((item :: second :: items).map word) ++
                      closing :: rest =
                    head :: (tail ++
                      separator :: ([space] ++
                        (joined separator space
                            ((second :: items).map word) ++
                          closing :: rest))) := by
                simp [joined, same]
              rw [stream, readParts, dropWhile_blanks blanks solid,
                ← List.cons_append, next, List.mapM_cons]
              cases value : readAs item with
              | none => rfl
              | some part =>
                  simp only [Option.map_some, List.dropWhile_cons,
                    delimiters.separator_not_blank, delimiters.distinct,
                    Bool.false_eq_true, if_false, if_true, others]
                  cases (second :: items).mapM readAs <;> rfl

omit [DecidableEq σ] in
theorem length_le_length_joined
    (opens :
      ∀ item ∈ items, ∃ head tail, word item = head :: tail ∧
        isBlank head = false) :
    items.length ≤ (joined separator space (items.map word)).length := by
  induction items with
  | nil => exact Nat.zero_le _
  | cons item items induction =>
      rcases opens item List.mem_cons_self with ⟨head, tail, same, _⟩
      have others :=
        induction fun other member => opens other (List.mem_cons_of_mem _ member)
      cases items with
      | nil => simp [joined, same]
      | cons second items =>
          simp only [List.map_cons, joined, List.length_append,
            List.length_cons] at others ⊢
          omega

omit [DecidableEq σ] in
theorem length_word_le_joined (word : ι → List σ) {item : ι}
    (listed : item ∈ items) :
    (word item).length ≤
      (joined separator space (items.map word)).length := by
  induction items with
  | nil => cases listed
  | cons first items induction =>
      cases items with
      | nil =>
          rw [List.mem_singleton.mp listed, List.map_singleton, joined]
      | cons second items =>
          rw [List.map_cons, List.map_cons, joined, ← List.map_cons]
          simp only [List.length_append, List.length_cons]
          rcases List.mem_cons.mp listed with rfl | later
          · omega
          · have shorter := induction later
            omega

/-- Joined words up to the closing symbol are read one by one. -/
theorem readSequence_joined
    (delimiters : Delimiters isBlank separator closing)
    (surrounds : Surrounds isBlank separator closing follow)
    (spaceBlank : isBlank space = true)
    (opens :
      ∀ item ∈ items, ∃ head tail, word item = head :: tail ∧
        isBlank head = false ∧ head ≠ closing)
    (reads :
      ∀ item ∈ items, ∀ rest, follow rest →
        read (word item ++ rest) =
          (readAs item).map fun part => (part, rest))
    (rest : List σ) :
    readSequence isBlank separator closing read
        (joined separator space (items.map word) ++ closing :: rest) =
      (items.mapM readAs).map fun parts => (parts, rest) := by
  cases items with
  | nil => simp [joined, readSequence, delimiters.closing_not_blank]
  | cons item items =>
      have starts :
          ∀ other ∈ item :: items, ∃ head tail, word other = head :: tail ∧
            isBlank head = false := by
        intro other member
        rcases opens other member with ⟨head, tail, same, solid, _⟩
        exact ⟨head, tail, same, solid⟩
      have shorter :
          (item :: items).length ≤
            (joined separator space ((item :: items).map word) ++
              closing :: rest).length := by
        have inner :
            (item :: items).length ≤
              (joined separator space ((item :: items).map word)).length :=
          length_le_length_joined starts
        rw [List.length_append]
        omega
      have noBlanks : ∀ symbol ∈ ([] : List σ), isBlank symbol = true := by
        simp
      have parsed :=
        readParts_joined delimiters surrounds spaceBlank starts reads
          (List.cons_ne_nil _ _) noBlanks rest shorter
      rw [List.nil_append] at parsed
      rcases opens item List.mem_cons_self with
        ⟨head, tail, same, solid, notClosing⟩
      have stream :
          ∃ others,
            joined separator space ((item :: items).map word) ++
                closing :: rest =
              head :: others := by
        cases items with
        | nil => exact ⟨_, by rw [List.map_singleton, joined, same]; rfl⟩
        | cons second items =>
            exact ⟨_, by rw [List.map_cons, List.map_cons, joined, same]; rfl⟩
      rcases stream with ⟨others, stream⟩
      rw [readSequence]
      rw [stream] at parsed ⊢
      rw [List.dropWhile_cons_of_neg (by simp [solid])]
      simp only [notClosing, if_false, parsed]

end Joined

/-! ## Soundness -/

section Sound

variable [DecidableEq σ] {isBlank : σ → Bool} {separator closing : σ}
  {read : List σ → Option (α × List σ)}
  {blank : List σ → Prop} {code : Code σ α}
  {parts : List α} {stream rest : List σ} {fuel : Nat}

omit [DecidableEq σ] in
/-- What is passed over is blank. -/
theorem exists_blanks
    (blanks :
      ∀ between, (∀ symbol ∈ between, isBlank symbol = true) →
        blank between)
    (stream : List σ) :
    ∃ between, blank between ∧
      stream = between ++ stream.dropWhile isBlank :=
  ⟨stream.takeWhile isBlank,
    blanks _ fun _ member => List.mem_takeWhile_imp member,
    List.takeWhile_append_dropWhile.symm⟩

/-- What is read as a nonempty sequence is a text of one. -/
theorem separatedText_of_readParts
    (blanks :
      ∀ between, (∀ symbol ∈ between, isBlank symbol = true) →
        blank between)
    (sound :
      ∀ stream part rest, read stream = some (part, rest) →
        ∃ word, code part word ∧ stream = word ++ rest)
    (parsed :
      readParts isBlank separator closing read fuel stream =
        some (parts, rest)) :
    ∃ text, SeparatedText blank separator code parts text ∧
      stream = text ++ closing :: rest := by
  induction fuel generalizing stream parts rest with
  | zero => cases parsed
  | succ fuel induction =>
      rw [readParts] at parsed
      cases first : read (stream.dropWhile isBlank) with
      | none =>
          rw [first] at parsed
          cases parsed
      | some found =>
          rcases found with ⟨part, later⟩
          rcases sound _ _ _ first with ⟨word, written, split⟩
          rcases exists_blanks blanks stream with ⟨before, opens, whole⟩
          rcases exists_blanks blanks later with ⟨after, closes, laterSplit⟩
          rw [split] at whole
          rw [first] at parsed
          cases next : later.dropWhile isBlank with
          | nil => simp [next] at parsed
          | cons symbol others =>
              rw [next] at laterSplit
              simp only [next] at parsed
              split at parsed
              case isTrue last =>
                  cases parsed
                  subst last
                  refine ⟨_, .last opens written closes, ?_⟩
                  rw [whole, laterSplit]
                  simp
              case isFalse =>
                  split at parsed
                  case isFalse => cases parsed
                  case isTrue more =>
                      rcases Option.map_eq_some_iff.mp parsed with
                        ⟨⟨others', rest'⟩, tail, same⟩
                      cases same
                      rcases induction tail with ⟨text, texts, lastSplit⟩
                      subst more
                      refine ⟨_, .more opens written closes texts, ?_⟩
                      rw [whole, laterSplit, lastSplit]
                      simp

/-- What is read as a sequence is blank or a text of a sequence. -/
theorem text_of_readSequence
    (blanks :
      ∀ between, (∀ symbol ∈ between, isBlank symbol = true) →
        blank between)
    (sound :
      ∀ stream part rest, read stream = some (part, rest) →
        ∃ word, code part word ∧ stream = word ++ rest)
    (parsed :
      readSequence isBlank separator closing read stream =
        some (parts, rest)) :
    (parts = [] ∧
      ∃ between, blank between ∧ stream = between ++ closing :: rest) ∨
      ∃ text, SeparatedText blank separator code parts text ∧
        stream = text ++ closing :: rest := by
  rw [readSequence] at parsed
  rcases exists_blanks blanks stream with ⟨between, opens, split⟩
  cases next : stream.dropWhile isBlank with
  | nil => simp [next] at parsed
  | cons symbol others =>
      simp only [next] at parsed
      rw [next] at split
      split at parsed
      case isTrue closed =>
          cases parsed
          subst closed
          exact Or.inl ⟨rfl, between, opens, split⟩
      case isFalse =>
          exact Or.inr (separatedText_of_readParts blanks sound parsed)

end Sound

end Trackward.Lib.SeparatedTexts
