import Trackward.Lib.Transactions

/-!
# What one execution of a handler leaves behind

`Runs` is the sequential meaning of a program over the database interface: it
relates the rows a client has inserted and committed so far to those after one
complete execution, whatever the database answers, and to the outcome.  It is
compositional, so the possible outcomes of a handler are found by taking it
apart.
-/

namespace Trackward.Lib.Outcomes

open Trackward.Lib.Programs
open Trackward.Lib.Transactions

variable {Key Row Effect Fault ε α β : Type}

/-- The rows a client has inserted but not committed, and those committed. -/
structure Tally (Row : Type) where
  pending : List Row
  committed : List Row

/-- No row. -/
def Tally.zero : Tally Row :=
  ⟨[], []⟩

/-- A statement that succeeded. -/
def Tally.note (tally : Tally Row) : Op Key Row Effect → Tally Row
  | .insert row => { tally with pending := tally.pending ++ [row] }
  | .commit => ⟨[], tally.committed ++ tally.pending⟩
  | .publish row => { tally with committed := tally.committed ++ [row] }
  | _ => tally

/-- A statement that was answered; a fault changes nothing. -/
def Tally.event (tally : Tally Row)
    (event : Program.Event (database Key Row Effect Fault)) : Tally Row :=
  match (event.answer : Except Fault (Reply event.op)) with
  | .ok _ => tally.note (event.op : Op Key Row Effect)
  | .error _ => tally

/-- The tally of a client follows the database it runs against. -/
theorem Tally.note_of_succeed
    {Client : Type} [DecidableEq Client] [DecidableEq Key]
    {accepts : List Row → Row → Bool}
    {state after : State Client Key Row Effect} {client : Client}
    {now : Int} {op : Op Key Row Effect} {reply : Reply op}
    (succeeded : state.succeed accepts client now op = some (reply, after))
    (committed : List Row) :
    Tally.note ⟨state.pending client, committed⟩ op =
      ⟨after.pending client,
        committed ++ op.visible (state.pending client)⟩ := by
  cases State.succeeds_of_succeed succeeded with
  | commit => simp [note, Op.visible, State.release]
  | begin | lock | select | insert | publish | emit =>
      simp [note, Op.visible]

/-- One complete execution of a program. -/
def Runs (program : Program (database Key Row Effect Fault) ε α)
    (before after : Tally Row) (outcome : Except ε α) : Prop :=
  ∃ events, Program.Executes program events outcome ∧
    events.foldl Tally.event before = after

variable {before after : Tally Row}

@[simp]
theorem runs_done_iff {value : α} {outcome : Except ε α} :
    Runs (.done value : Program (database Key Row Effect Fault) ε α) before
        after outcome ↔
      after = before ∧ outcome = .ok value := by
  simp only [Runs, Program.executes_done_iff]
  constructor
  · rintro ⟨events, ⟨rfl, rfl⟩, rfl⟩
    exact ⟨rfl, rfl⟩
  · rintro ⟨rfl, rfl⟩
    exact ⟨[], ⟨rfl, rfl⟩, rfl⟩

@[simp]
theorem runs_raise_iff {error : ε} {outcome : Except ε α} :
    Runs (.raise error : Program (database Key Row Effect Fault) ε α) before
        after outcome ↔
      after = before ∧ outcome = .error error := by
  simp only [Runs, Program.executes_raise_iff]
  constructor
  · rintro ⟨events, ⟨rfl, rfl⟩, rfl⟩
    exact ⟨rfl, rfl⟩
  · rintro ⟨rfl, rfl⟩
    exact ⟨[], ⟨rfl, rfl⟩, rfl⟩

/-- The rule of sequencing. -/
theorem runs_bind_iff
    {first : Program (database Key Row Effect Fault) ε α}
    {second : α → Program (database Key Row Effect Fault) ε β}
    {outcome : Except ε β} :
    Runs (first >>= second) before after outcome ↔
      (∃ error, Runs first before after (.error error) ∧
        outcome = .error error) ∨
      ∃ value middle, Runs first before middle (.ok value) ∧
        Runs (second value) middle after outcome := by
  simp only [Runs, Program.executes_bind_iff]
  constructor
  · rintro ⟨events, failed | split, rfl⟩
    · rcases failed with ⟨error, stopped, rfl⟩
      exact Or.inl ⟨error, ⟨events, stopped, rfl⟩, rfl⟩
    · rcases split with ⟨value, earlier, later, rfl, ran, continued⟩
      refine Or.inr ⟨value, _, ⟨earlier, ran, rfl⟩, later, continued, ?_⟩
      rw [List.foldl_append]
  · rintro (failed | split)
    · rcases failed with ⟨error, ⟨events, stopped, rfl⟩, rfl⟩
      exact ⟨events, Or.inl ⟨error, stopped, rfl⟩, rfl⟩
    · rcases split with
        ⟨value, middle, ⟨earlier, ran, rfl⟩, later, continued, rfl⟩
      refine ⟨earlier ++ later,
        Or.inr ⟨value, earlier, later, rfl, ran, continued⟩, ?_⟩
      rw [List.foldl_append]

/-- A statement succeeds, or fails with some fault. -/
theorem runs_attempt_iff
    {op : Op Key Row Effect} {wrap : Fault → ε}
    {outcome : Except ε (Reply op)} :
    Runs (attempt op wrap : Program (database Key Row Effect Fault) ε _)
        before after outcome ↔
      (∃ reply, outcome = .ok reply ∧ after = before.note op) ∨
        ∃ fault, outcome = .error (wrap fault) ∧ after = before := by
  constructor
  · rintro ⟨events, execution, rfl⟩
    rcases Program.executes_call_iff.mp execution with
      ⟨answer, rest, rfl, continued⟩
    cases answer with
    | ok reply =>
        rcases Program.executes_done_iff.mp continued with ⟨rfl, rfl⟩
        exact Or.inl ⟨reply, rfl, rfl⟩
    | error fault =>
        rcases Program.executes_raise_iff.mp continued with ⟨rfl, rfl⟩
        exact Or.inr ⟨fault, rfl, rfl⟩
  · rintro (⟨reply, rfl, rfl⟩ | ⟨fault, rfl, rfl⟩)
    · refine ⟨[⟨op, .ok reply⟩], ?_, rfl⟩
      exact Program.executes_call_iff.mpr ⟨_, [], rfl, .done reply⟩
    · refine ⟨[⟨op, .error fault⟩], ?_, rfl⟩
      exact Program.executes_call_iff.mpr ⟨_, [], rfl, .raise (wrap fault)⟩

/-! ## Values a program may return -/

/-- Some answers make the program return the value. -/
def Returns (program : Program (database Key Row Effect Fault) ε α)
    (value : α) : Prop :=
  ∃ events, Program.Executes program events (.ok value)

@[simp]
theorem returns_done_iff {value value' : α} :
    Returns (.done value : Program (database Key Row Effect Fault) ε α)
        value' ↔
      value' = value := by
  simp only [Returns, Program.executes_done_iff, Except.ok.injEq]
  constructor
  · rintro ⟨_, _, same⟩
    exact same
  · intro same
    exact ⟨[], rfl, same⟩

@[simp]
theorem not_returns_raise {error : ε} {value : α} :
    ¬ Returns (.raise error : Program (database Key Row Effect Fault) ε α)
      value := by
  rintro ⟨_, execution⟩
  cases (Program.executes_raise_iff.mp execution).2

theorem returns_bind_iff
    {first : Program (database Key Row Effect Fault) ε α}
    {second : α → Program (database Key Row Effect Fault) ε β}
    {value : β} :
    Returns (first >>= second) value ↔
      ∃ middle, Returns first middle ∧ Returns (second middle) value := by
  simp only [Returns, Program.executes_bind_iff]
  constructor
  · rintro ⟨events, ⟨_, _, ⟨⟩⟩ | ⟨middle, earlier, later, _, ran, rest⟩⟩
    exact ⟨middle, ⟨earlier, ran⟩, ⟨later, rest⟩⟩
  · rintro ⟨middle, ⟨earlier, ran⟩, ⟨later, rest⟩⟩
    exact ⟨_, Or.inr ⟨middle, earlier, later, rfl, ran, rest⟩⟩

/-- A statement may be answered with any reply. -/
@[simp]
theorem returns_attempt
    {op : Op Key Row Effect} {wrap : Fault → ε} (reply : Reply op) :
    Returns (attempt op wrap : Program (database Key Row Effect Fault) ε _)
      reply :=
  ⟨[⟨op, .ok reply⟩],
    Program.executes_call_iff.mpr ⟨.ok reply, [], rfl, .done reply⟩⟩

/-! ## Programs that commit one row -/

/-- The row of the value and nothing else is committed, or nothing at all. -/
def Concludes (row : α → Row)
    (program : Program (database Key Row Effect Fault) ε α) : Prop :=
  ∀ after outcome, Runs program Tally.zero after outcome →
    (∃ value, outcome = .ok value ∧ after.committed = [row value]) ∨
      ∃ error, outcome = .error error ∧ after.committed = []

section Concludes

variable {row : α → Row}

theorem concludes_raise (error : ε) :
    Concludes row
      (.raise error : Program (database Key Row Effect Fault) ε α) := by
  intro after outcome ran
  rcases runs_raise_iff.mp ran with ⟨rfl, rfl⟩
  exact Or.inr ⟨error, rfl, rfl⟩

/-- A statement that writes nothing, before a program that concludes. -/
theorem concludes_attempt_bind {op : Op Key Row Effect} {wrap : Fault → ε}
    {next : Reply op → Program (database Key Row Effect Fault) ε α}
    (quiet : (Tally.zero : Tally Row).note op = Tally.zero)
    (concludes : ∀ reply, Concludes row (next reply)) :
    Concludes row (attempt op wrap >>= next) := by
  intro after outcome ran
  rcases runs_bind_iff.mp ran with
    ⟨error, failed, rfl⟩ | ⟨reply, middle, answered, rest⟩
  · rcases runs_attempt_iff.mp failed with ⟨_, ⟨⟩, _⟩ | ⟨fault, ⟨⟩, rfl⟩
    exact Or.inr ⟨_, rfl, rfl⟩
  · rcases runs_attempt_iff.mp answered with ⟨_, ⟨⟩, rfl⟩ | ⟨_, ⟨⟩, _⟩
    rw [quiet] at rest
    exact concludes reply after outcome rest

/-- A row that is published at once. -/
theorem concludes_publish {wrap : Fault → ε} (value : α) :
    Concludes row
      (attempt (.publish (row value)) wrap >>= fun _ => .done value :
        Program (database Key Row Effect Fault) ε α) := by
  intro after outcome ran
  rcases runs_bind_iff.mp ran with
    ⟨error, failed, rfl⟩ | ⟨reply, middle, answered, rest⟩
  · rcases runs_attempt_iff.mp failed with ⟨_, ⟨⟩, _⟩ | ⟨fault, ⟨⟩, rfl⟩
    exact Or.inr ⟨_, rfl, rfl⟩
  · rcases runs_attempt_iff.mp answered with ⟨_, ⟨⟩, rfl⟩ | ⟨_, ⟨⟩, _⟩
    rcases runs_done_iff.mp rest with ⟨rfl, rfl⟩
    exact Or.inl ⟨value, rfl, rfl⟩

/-- A row that is inserted and committed in the transaction. -/
theorem concludes_insert {wrap wrap' : Fault → ε} (value : α) :
    Concludes row
      (attempt (.insert (row value)) wrap >>= fun _ =>
          attempt .commit wrap' >>= fun _ => .done value :
        Program (database Key Row Effect Fault) ε α) := by
  intro after outcome ran
  rcases runs_bind_iff.mp ran with
    ⟨error, failed, rfl⟩ | ⟨reply, middle, inserted, rest⟩
  · rcases runs_attempt_iff.mp failed with ⟨_, ⟨⟩, _⟩ | ⟨fault, ⟨⟩, rfl⟩
    exact Or.inr ⟨_, rfl, rfl⟩
  · rcases runs_attempt_iff.mp inserted with ⟨_, ⟨⟩, rfl⟩ | ⟨_, ⟨⟩, _⟩
    rcases runs_bind_iff.mp rest with
      ⟨error, failed, rfl⟩ | ⟨_, middle, committed, rest⟩
    · rcases runs_attempt_iff.mp failed with ⟨_, ⟨⟩, _⟩ | ⟨fault, ⟨⟩, rfl⟩
      exact Or.inr ⟨_, rfl, rfl⟩
    · rcases runs_attempt_iff.mp committed with ⟨_, ⟨⟩, rfl⟩ | ⟨_, ⟨⟩, _⟩
      rcases runs_done_iff.mp rest with ⟨rfl, rfl⟩
      exact Or.inl ⟨value, rfl, rfl⟩

end Concludes

/-! ## Programs on part of a database -/

/-- The rows of a part as rows of the whole. -/
def Tally.map {Part : Type} (inject : Part → Row) (tally : Tally Part) :
    Tally Row :=
  ⟨tally.pending.map inject, tally.committed.map inject⟩

/-- A statement about a part notes the rows of the part. -/
theorem Tally.note_embed {Part : Type} (inject : Part → Row)
    (tally : Tally Part) (op : Op Key Part Effect) :
    (tally.map inject).note (op.embed inject) =
      (tally.note op).map inject := by
  cases op <;> simp [Tally.note, Tally.map, Op.embed]

/-- A program on a part of a database runs there as it does on the part. -/
theorem runs_of_embed {Part ε' : Type} {inject : Part → Row}
    {part : Row → Option Part} {wrap : ε → ε'}
    {program : Program (database Key Part Effect Fault) ε α}
    {before : Tally Part} {after : Tally Row} {outcome : Except ε' α}
    (ran :
      Runs (embed inject part wrap program) (before.map inject) after
        outcome) :
    ∃ after' outcome',
      Runs program before after' outcome' ∧ after = after'.map inject ∧
        outcome = outcome'.mapError wrap := by
  induction program generalizing before with
  | done value =>
      rcases runs_done_iff.mp ran with ⟨rfl, rfl⟩
      exact ⟨before, .ok value, runs_done_iff.mpr ⟨rfl, rfl⟩, rfl, rfl⟩
  | raise error =>
      rcases runs_raise_iff.mp ran with ⟨rfl, rfl⟩
      exact ⟨before, .error error, runs_raise_iff.mpr ⟨rfl, rfl⟩, rfl, rfl⟩
  | call op next induction =>
      rcases ran with ⟨events, executed, rfl⟩
      rcases Program.executes_call_iff.mp executed with
        ⟨answer, rest, rfl, continued⟩
      have noted :
          (before.map inject).event ⟨Op.embed inject op, answer⟩ =
            (before.event
                ⟨op, answerOfPart inject part op answer⟩).map inject := by
        cases answer with
        | ok reply => exact before.note_embed inject op
        | error fault => rfl
      have later :
          Runs
            (embed inject part wrap
              (next (answerOfPart inject part op answer)))
            ((before.event
                ⟨op, answerOfPart inject part op answer⟩).map inject)
            (rest.foldl Tally.event
              ((before.map inject).event ⟨Op.embed inject op, answer⟩))
            outcome := by
        rw [noted]
        exact ⟨rest, continued, rfl⟩
      rcases induction _ later with
        ⟨after', outcome', ⟨events, ran', rfl⟩, same, sameOutcome⟩
      exact
        ⟨_, outcome', ⟨_ :: events, .call _ ran', rfl⟩, same, sameOutcome⟩

/-- On a part of a database a program concludes as it does on the part. -/
theorem Concludes.embed {Part ε' : Type} {inject : Part → Row}
    {part : Row → Option Part} {wrap : ε → ε'} {row : α → Part}
    {program : Program (database Key Part Effect Fault) ε α}
    (concludes : Concludes row program) :
    Concludes (fun value => inject (row value))
      (embed inject part wrap program) := by
  intro after outcome ran
  rcases @runs_of_embed _ _ _ _ _ _ _ _ _ _ _ _ Tally.zero _ _ ran with
    ⟨after', outcome', ran', rfl, rfl⟩
  rcases concludes after' outcome' ran' with
    ⟨value, rfl, one⟩ | ⟨error, rfl, nothing⟩
  · exact Or.inl ⟨value, rfl, by simp [Tally.map, one]⟩
  · exact Or.inr ⟨wrap error, rfl, by simp [Tally.map, nothing]⟩

end Trackward.Lib.Outcomes
