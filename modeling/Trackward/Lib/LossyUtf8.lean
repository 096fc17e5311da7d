import Trackward.Lib.Octets
import Mathlib.Data.List.Infix
import Mathlib.Tactic.Common

/-!
# UTF-8 with replacement characters

A byte string that need not be UTF-8 is shown as a text by putting a
replacement character in the place of whatever is ill-formed: of each longest
run of bytes that starts a character and is not continued to its end, and of
each byte that starts none.

Many byte strings are shown as one text.  A byte string is determined by its
text exactly if it is well-formed and has no replacement character itself.
-/

namespace Trackward.Lib.LossyUtf8

open Trackward.Lib.Octets

/-! ## Characters -/

/-- What a few bytes are: a character, the start of one, or neither. -/
inductive Verdict where
  | whole
  | more
  | broken
  deriving DecidableEq

def isContinuation (byte : UInt8) : Bool :=
  0x80 ≤ byte && byte ≤ 0xBF

/-- The second byte of a character after its first. -/
def follows (lead second : UInt8) : Bool :=
  if lead = 0xE0 then 0xA0 ≤ second && second ≤ 0xBF
  else if lead = 0xED then 0x80 ≤ second && second ≤ 0x9F
  else if lead = 0xF0 then 0x90 ≤ second && second ≤ 0xBF
  else if lead = 0xF4 then 0x80 ≤ second && second ≤ 0x8F
  else isContinuation second

/-- Judge a byte after bytes that start a character. -/
def judge : Bytes → Verdict
  | [lead] =>
      if lead < 0x80 then .whole
      else if 0xC2 ≤ lead && lead ≤ 0xF4 then .more
      else .broken
  | [lead, second] =>
      if follows lead second then
        if lead < 0xE0 then .whole else .more
      else .broken
  | [lead, _, third] =>
      if isContinuation third then
        if lead < 0xF0 then .whole else .more
      else .broken
  | [_, _, _, fourth] =>
      if isContinuation fourth then .whole else .broken
  | _ => .broken

/-- A range within that of the continuation bytes. -/
theorem isContinuation_of_range {low high byte : UInt8} (lower : 0x80 ≤ low)
    (upper : high ≤ 0xBF) (inside : (low ≤ byte && byte ≤ high) = true) :
    isContinuation byte = true := by
  rw [Bool.and_eq_true, decide_eq_true_iff, decide_eq_true_iff] at inside
  rw [isContinuation, Bool.and_eq_true, decide_eq_true_iff,
    decide_eq_true_iff]
  exact
    ⟨UInt8.le_trans lower inside.1, UInt8.le_trans inside.2 upper⟩

theorem isContinuation_of_follows {lead second : UInt8}
    (follow : follows lead second = true) : isContinuation second = true := by
  unfold follows at follow
  split at follow
  · exact isContinuation_of_range (by decide) (by decide) follow
  split at follow
  · exact isContinuation_of_range (by decide) (by decide) follow
  split at follow
  · exact isContinuation_of_range (by decide) (by decide) follow
  split at follow
  · exact isContinuation_of_range (by decide) (by decide) follow
  · exact follow

/-- Only a continuation byte goes on with a character. -/
theorem judge_of_lead {pending : Bytes} {byte : UInt8}
    (lead : isContinuation byte = false) (started : pending ≠ []) :
    judge (pending ++ [byte]) = .broken := by
  match pending with
  | [] => exact absurd rfl started
  | [first] =>
      have stops : follows first byte = false := by
        rw [Bool.eq_false_iff]
        intro follow
        rw [isContinuation_of_follows follow] at lead
        cases lead
      simp [judge, stops]
  | [first, second] => simp [judge, lead]
  | [first, second, third] => simp [judge, lead]
  | first :: second :: third :: fourth :: rest => cases rest <;> rfl

/-! ## Well-formed byte strings -/

/-- The bytes go on with the pending ones to whole characters. -/
def continues : Bytes → Bytes → Bool
  | pending, [] => pending.isEmpty
  | pending, byte :: rest =>
      match judge (pending ++ [byte]) with
      | .whole => continues [] rest
      | .more => continues (pending ++ [byte]) rest
      | .broken => false

/-- The bytes are UTF-8. -/
def wellFormed (bytes : Bytes) : Bool :=
  continues [] bytes

/-- The replacement character U+FFFD. -/
def replacement : Bytes :=
  [0xEF, 0xBF, 0xBD]

/-- The text of the bytes after pending ones that start a character. -/
def lossyFrom : Bytes → Bytes → Bytes
  | pending, [] => if pending.isEmpty then [] else replacement
  | pending, byte :: rest =>
      match judge (pending ++ [byte]) with
      | .whole => pending ++ byte :: lossyFrom [] rest
      | .more => lossyFrom (pending ++ [byte]) rest
      | .broken =>
          -- the pending bytes are replaced, and the byte starts anew
          (if pending.isEmpty then [] else replacement) ++
            match judge [byte] with
            | .whole => byte :: lossyFrom [] rest
            | .more => lossyFrom [byte] rest
            | .broken => replacement ++ lossyFrom [] rest

/-- The text of any bytes. -/
def lossy (bytes : Bytes) : Bytes :=
  lossyFrom [] bytes

/-- The text of a byte that is not pending and what comes after it. -/
theorem lossy_cons (byte : UInt8) (rest : Bytes) :
    lossy (byte :: rest) =
      match judge [byte] with
      | .whole => byte :: lossyFrom [] rest
      | .more => lossyFrom [byte] rest
      | .broken => replacement ++ lossyFrom [] rest := by
  rw [lossy, lossyFrom]
  cases found : judge [byte] with
  | whole => simp [found]
  | more => simp [found]
  | broken => simp [found]

example :
    lossy [0x61, 0xFF, 0xE2, 0x82] =
      [0x61] ++ replacement ++ replacement := by
  decide

/-- A byte that continues no character ends the one before it. -/
theorem lossyFrom_append {byte : UInt8}
    (lead : isContinuation byte = false) (pending front rest : Bytes) :
    lossyFrom pending (front ++ byte :: rest) =
      lossyFrom pending front ++ lossy (byte :: rest) := by
  induction front generalizing pending with
  | nil =>
      cases pending with
      | nil => rfl
      | cons first others =>
          have broken := judge_of_lead lead (List.cons_ne_nil first others)
          have ended :
              lossyFrom (first :: others) (byte :: rest) =
                replacement ++ lossy (byte :: rest) := by
            rw [lossyFrom, broken, lossy_cons]
            rfl
          exact ended
  | cons first front induction =>
      rw [List.cons_append, lossyFrom, lossyFrom]
      cases judge (pending ++ [first]) with
      | whole => simp [induction]
      | more => simp [induction]
      | broken =>
          cases judge [first] with
          | whole => simp [induction]
          | more => simp [induction]
          | broken => simp [induction]

theorem lossy_append {byte : UInt8} (lead : isContinuation byte = false)
    (front rest : Bytes) :
    lossy (front ++ byte :: rest) = lossy front ++ lossy (byte :: rest) :=
  lossyFrom_append lead [] front rest

/-- An ASCII byte is shown as it is. -/
theorem lossy_cons_of_ascii {byte : UInt8} (ascii : byte < 0x80)
    (rest : Bytes) : lossy (byte :: rest) = byte :: lossy rest := by
  rw [lossy_cons, judge, if_pos ascii]
  rfl

theorem not_isContinuation_of_ascii {byte : UInt8} (ascii : byte < 0x80) :
    isContinuation byte = false := by
  rw [isContinuation, Bool.and_eq_false_iff, decide_eq_false_iff_not]
  exact Or.inl (UInt8.not_le.mpr ascii)

theorem lossy_append_of_ascii {front : Bytes}
    (ascii : ∀ byte ∈ front, byte < 0x80) (rest : Bytes) :
    lossy (front ++ rest) = front ++ lossy rest := by
  induction front with
  | nil => rfl
  | cons byte front induction =>
      rw [List.cons_append, List.cons_append,
        lossy_cons_of_ascii (ascii byte List.mem_cons_self),
        induction fun other member =>
          ascii other (List.mem_cons_of_mem _ member)]

/-- ASCII bytes between others are shown as they are. -/
theorem lossy_around_ascii {middle : Bytes}
    (ascii : ∀ byte ∈ middle, byte < 0x80) (nonempty : middle ≠ [])
    (front rest : Bytes) :
    lossy (front ++ (middle ++ rest)) =
      lossy front ++ (middle ++ lossy rest) := by
  cases middle with
  | nil => exact absurd rfl nonempty
  | cons byte middle =>
      have first := ascii byte List.mem_cons_self
      rw [List.cons_append, lossy_append (not_isContinuation_of_ascii first),
        ← List.cons_append, lossy_append_of_ascii ascii]

/-! ## What a text says of the bytes -/

/-- Where nothing was replaced, the bytes are shown as they are. -/
theorem lossyFrom_eq_or_replaced (pending bytes : Bytes) :
    lossyFrom pending bytes = pending ++ bytes ∨
      replacement <:+: lossyFrom pending bytes := by
  induction bytes generalizing pending with
  | nil =>
      cases pending with
      | nil => exact Or.inl rfl
      | cons first others => exact Or.inr (List.infix_refl _)
  | cons byte bytes induction =>
      rw [lossyFrom]
      cases found : judge (pending ++ [byte]) with
      | whole =>
          rcases induction [] with same | replaced
          · exact Or.inl (by simp [same])
          · exact
              Or.inr
                ((List.infix_cons replaced).trans
                  (List.suffix_append pending _).isInfix)
      | more =>
          rcases induction (pending ++ [byte]) with same | replaced
          · exact Or.inl (by simp [same])
          · exact Or.inr replaced
      | broken =>
          refine Or.inr ?_
          cases pending with
          | nil =>
              rw [List.nil_append] at found
              rw [found]
              exact (List.prefix_append replacement _).isInfix
          | cons first others =>
              exact (List.prefix_append replacement _).isInfix

theorem lossy_eq_or_replaced (bytes : Bytes) :
    lossy bytes = bytes ∨ replacement <:+: lossy bytes :=
  lossyFrom_eq_or_replaced [] bytes

/-- The bytes of a text are bytes of the string or of the replacement. -/
theorem mem_of_mem_lossyFrom {pending bytes : Bytes} {byte : UInt8}
    (member : byte ∈ lossyFrom pending bytes) :
    byte ∈ pending ∨ byte ∈ bytes ∨ byte ∈ replacement := by
  induction bytes generalizing pending with
  | nil =>
      rw [lossyFrom] at member
      split at member
      · cases member
      · exact Or.inr (Or.inr member)
  | cons first bytes induction =>
      -- what comes from the rest comes from there or from what is pending
      have later {held : Bytes} (inside : byte ∈ lossyFrom held bytes)
          (known : ∀ other ∈ held, other ∈ pending ∨ other = first) :
          byte ∈ pending ∨ byte ∈ first :: bytes ∨ byte ∈ replacement := by
        rcases induction inside with before | here | new
        · rcases known byte before with old | rfl
          · exact Or.inl old
          · exact Or.inr (Or.inl List.mem_cons_self)
        · exact Or.inr (Or.inl (List.mem_cons_of_mem _ here))
        · exact Or.inr (Or.inr new)
      rw [lossyFrom] at member
      split at member
      · rcases List.mem_append.mp member with old | new
        · exact Or.inl old
        · rcases List.mem_cons.mp new with rfl | inside
          · exact Or.inr (Or.inl List.mem_cons_self)
          · exact later inside (by simp)
      · exact later member (by simp)
      · rcases List.mem_append.mp member with new | other
        · split at new
          · cases new
          · exact Or.inr (Or.inr new)
        · split at other
          · rcases List.mem_cons.mp other with rfl | inside
            · exact Or.inr (Or.inl List.mem_cons_self)
            · exact later inside (by simp)
          · exact later other (by simp)
          · rcases List.mem_append.mp other with new | inside
            · exact Or.inr (Or.inr new)
            · exact later inside (by simp)

theorem mem_of_mem_lossy {bytes : Bytes} {byte : UInt8}
    (member : byte ∈ lossy bytes) : byte ∈ bytes ∨ byte ∈ replacement :=
  (mem_of_mem_lossyFrom member).resolve_left (by simp)

/-- Well-formed bytes are shown as they are. -/
theorem lossyFrom_of_continues {pending bytes : Bytes}
    (whole : continues pending bytes = true) :
    lossyFrom pending bytes = pending ++ bytes := by
  induction bytes generalizing pending with
  | nil =>
      rw [continues, List.isEmpty_iff] at whole
      subst whole
      rfl
  | cons byte bytes induction =>
      rw [continues] at whole
      rw [lossyFrom]
      cases found : judge (pending ++ [byte]) with
      | whole =>
          rw [found] at whole
          simp [induction whole]
      | more =>
          rw [found] at whole
          simp [induction whole]
      | broken =>
          rw [found] at whole
          cases whole

/-- Pending bytes that a reader from the start would hold. -/
def Held (pending : Bytes) : Prop :=
  ∀ rest, wellFormed (pending ++ rest) = continues pending rest

theorem held_nil : Held [] :=
  fun _ => rfl

theorem Held.more {pending : Bytes} {byte : UInt8} (held : Held pending)
    (more : judge (pending ++ [byte]) = .more) : Held (pending ++ [byte]) := by
  intro rest
  rw [List.append_assoc, held, List.singleton_append, continues, more]

theorem wellFormed_replacement_append (rest : Bytes) :
    wellFormed (replacement ++ rest) = wellFormed rest :=
  rfl

/-- A text is well-formed. -/
theorem wellFormed_lossyFrom {pending : Bytes} (bytes : Bytes)
    (held : Held pending) : wellFormed (lossyFrom pending bytes) = true := by
  induction bytes generalizing pending with
  | nil =>
      rw [lossyFrom]
      split
      · rfl
      · rfl
  | cons byte bytes induction =>
      rw [lossyFrom]
      cases found : judge (pending ++ [byte]) with
      | whole =>
          have reads := held (byte :: lossyFrom [] bytes)
          rw [continues, found] at reads
          exact reads.trans (induction held_nil)
      | more => exact induction (held.more found)
      | broken =>
          have anew :
              wellFormed
                  (match judge [byte] with
                  | .whole => byte :: lossyFrom [] bytes
                  | .more => lossyFrom [byte] bytes
                  | .broken => replacement ++ lossyFrom [] bytes) =
                true := by
            cases first : judge [byte] with
            | whole =>
                have reads : wellFormed (byte :: lossyFrom [] bytes) = _ :=
                  held_nil (byte :: lossyFrom [] bytes)
                rw [continues, List.nil_append, first] at reads
                exact reads.trans (induction held_nil)
            | more => exact induction (held_nil.more first)
            | broken =>
                exact
                  (wellFormed_replacement_append _).trans
                    (induction held_nil)
          cases pending with
          | nil => exact anew
          | cons first others =>
              exact (wellFormed_replacement_append _).trans anew

theorem wellFormed_lossy (bytes : Bytes) : wellFormed (lossy bytes) = true :=
  wellFormed_lossyFrom bytes held_nil

theorem lossy_of_wellFormed {bytes : Bytes}
    (whole : wellFormed bytes = true) : lossy bytes = bytes :=
  lossyFrom_of_continues whole

/-! ## Bytes that their text determines -/

/-- Well-formed bytes without a replacement character. -/
def Plain (bytes : Bytes) : Prop :=
  wellFormed bytes = true ∧ ¬ replacement <:+: bytes

/-- A byte that is no ASCII byte and in no text. -/
theorem lossy_cons_invalid (rest : Bytes) :
    lossy (0xFF :: rest) = replacement ++ lossy rest :=
  rfl

theorem lossy_replacement_append (rest : Bytes) :
    lossy (replacement ++ rest) = replacement ++ lossy rest :=
  rfl

/-- Plain bytes are the only ones with their text. -/
theorem Plain.eq_of_lossy_eq {bytes other : Bytes} (plain : Plain bytes)
    (same : lossy other = bytes) : other = bytes := by
  rcases lossy_eq_or_replaced other with shown | replaced
  · exact shown.symm.trans same
  · rw [same] at replaced
    exact absurd replaced plain.2

/-- Other bytes share their text with bytes that are not ASCII. -/
theorem exists_lossy_eq {bytes : Bytes} (plain : ¬ Plain bytes) :
    ∃ other,
      other ≠ bytes ∧ lossy other = lossy bytes ∧
        (∀ byte ∈ other, byte ∈ bytes ∨ 0x80 ≤ byte) ∧
          ∃ byte ∈ other, 0x80 ≤ byte := by
  have high : ∀ byte ∈ replacement, 0x80 ≤ byte := by
    simp [replacement]
  by_cases whole : wellFormed bytes = true
  · have replaced : replacement <:+: bytes := by
      by_contra absent
      exact plain ⟨whole, absent⟩
    rcases replaced with ⟨front, rest, rfl⟩
    refine ⟨front ++ 0xFF :: rest, ?_, ?_, ?_, 0xFF, by simp, by decide⟩
    · intro same
      have lengths := congrArg List.length same
      simp [replacement] at lengths
    · have invalid : isContinuation 0xFF = false := by decide
      have lead : isContinuation 0xEF = false := by decide
      have shown := lossy_append lead front ([0xBF, 0xBD] ++ rest)
      rw [lossy_append invalid, lossy_cons_invalid, List.append_assoc,
        ← lossy_replacement_append]
      exact shown.symm
    · intro byte member
      rcases List.mem_append.mp member with old | new
      · exact Or.inl (by simp [old])
      · rcases List.mem_cons.mp new with rfl | later
        · exact Or.inr (by decide)
        · exact Or.inl (by simp [later])
  · rcases lossy_eq_or_replaced bytes with same | replaced
    · rw [← same] at whole
      exact absurd (wellFormed_lossy bytes) whole
    · refine ⟨lossy bytes, ?_, ?_, ?_, 0xEF, ?_, by decide⟩
      · intro same
        rw [← same] at whole
        exact whole (wellFormed_lossy bytes)
      · exact lossy_of_wellFormed (wellFormed_lossy bytes)
      · intro byte member
        rcases mem_of_mem_lossy member with old | new
        · exact Or.inl old
        · exact Or.inr (high byte new)
      · exact replaced.subset (by decide)

/-- Which bytes their text determines. -/
theorem plain_iff {bytes : Bytes} :
    Plain bytes ↔ ∀ other, lossy other = lossy bytes → other = bytes := by
  constructor
  · intro plain other same
    rw [lossy_of_wellFormed plain.1] at same
    exact plain.eq_of_lossy_eq same
  · intro determined
    by_contra plain
    rcases exists_lossy_eq plain with ⟨other, different, same, _⟩
    exact different (determined other same)

end Trackward.Lib.LossyUtf8
