import Trackward.Lib.Runs

/-!
# Programs over an interface of calls

A `Program` is a request handler seen from outside: it performs calls on an
interface, continues with whatever each call answers, and ends either with a
value or by raising an error.  The interface lists the calls and the type of
the answer to each, so the same definition of a handler can be run against
any environment that answers its calls.

`Executes` is the sequential meaning: it relates a program to the list of
calls and answers of one complete execution, with no assumption about the
environment.  The interleaved meaning is in `Trackward.Lib.Sessions`.
-/

namespace Trackward.Lib.Programs

/-- The calls a program may make, and the answers each may receive. -/
structure Interface where
  Op : Type
  Answer : Op → Type

/-- A handler that calls on an interface, returns a value or raises an error. -/
inductive Program (interface : Interface) (ε α : Type) where
  | done (value : α)
  | raise (error : ε)
  | call (op : interface.Op)
      (next : interface.Answer op → Program interface ε α)

namespace Program

variable {interface : Interface} {ε α β γ : Type}

/-- Run `first`, then the program its value selects. -/
def bind (first : Program interface ε α)
    (second : α → Program interface ε β) : Program interface ε β :=
  match first with
  | .done value => second value
  | .raise error => .raise error
  | .call op next => .call op fun answer => bind (next answer) second

instance : Monad (Program interface ε) where
  pure := .done
  bind := bind

@[simp]
theorem pure_eq (value : α) :
    (pure value : Program interface ε α) = .done value := rfl

@[simp]
theorem done_bind (value : α) (second : α → Program interface ε β) :
    (Program.done value >>= second) = second value := rfl

@[simp]
theorem raise_bind (error : ε) (second : α → Program interface ε β) :
    (Program.raise error >>= second) = .raise error := rfl

@[simp]
theorem call_bind (op : interface.Op)
    (next : interface.Answer op → Program interface ε α)
    (second : α → Program interface ε β) :
    (Program.call op next >>= second) =
      .call op fun answer => next answer >>= second := rfl

theorem bind_assoc (first : Program interface ε α)
    (second : α → Program interface ε β)
    (third : β → Program interface ε γ) :
    (first >>= second >>= third) =
      first >>= fun value => second value >>= third := by
  induction first with
  | done value => rfl
  | raise error => rfl
  | call op next induction =>
      simp only [call_bind]
      congr 1
      funext answer
      exact induction answer

/-- One call with its answer. -/
structure Event (interface : Interface) where
  op : interface.Op
  answer : interface.Answer op

/--
One complete execution: the calls made, the answers received, and the value
returned or the error raised.
-/
inductive Executes :
    Program interface ε α → List (Event interface) → Except ε α → Prop where
  | done (value : α) : Executes (.done value) [] (.ok value)
  | raise (error : ε) : Executes (.raise error) [] (.error error)
  | call {op : interface.Op}
      {next : interface.Answer op → Program interface ε α}
      (answer : interface.Answer op)
      {events : List (Event interface)} {outcome : Except ε α}
      (rest : Executes (next answer) events outcome) :
      Executes (.call op next) (⟨op, answer⟩ :: events) outcome

@[simp]
theorem executes_done_iff {value : α}
    {events : List (Event interface)} {outcome : Except ε α} :
    Executes (.done value : Program interface ε α) events outcome ↔
      events = [] ∧ outcome = .ok value := by
  constructor
  · intro execution
    cases execution
    exact ⟨rfl, rfl⟩
  · rintro ⟨rfl, rfl⟩
    exact .done value

@[simp]
theorem executes_raise_iff {error : ε}
    {events : List (Event interface)} {outcome : Except ε α} :
    Executes (.raise error : Program interface ε α) events outcome ↔
      events = [] ∧ outcome = .error error := by
  constructor
  · intro execution
    cases execution
    exact ⟨rfl, rfl⟩
  · rintro ⟨rfl, rfl⟩
    exact .raise error

theorem executes_call_iff {op : interface.Op}
    {next : interface.Answer op → Program interface ε α}
    {events : List (Event interface)} {outcome : Except ε α} :
    Executes (.call op next) events outcome ↔
      ∃ answer rest,
        events = ⟨op, answer⟩ :: rest ∧
          Executes (next answer) rest outcome := by
  constructor
  · intro execution
    cases execution with
    | call answer rest => exact ⟨answer, _, rfl, rest⟩
  · rintro ⟨answer, rest, rfl, execution⟩
    exact .call answer execution

/--
An execution of a sequence either stops with an error of the first program
or splits into an execution of each.
-/
theorem executes_bind_iff {first : Program interface ε α}
    {second : α → Program interface ε β}
    {events : List (Event interface)} {outcome : Except ε β} :
    Executes (first >>= second) events outcome ↔
      (∃ error, Executes first events (.error error) ∧
        outcome = .error error) ∨
      ∃ value before after,
        events = before ++ after ∧
          Executes first before (.ok value) ∧
            Executes (second value) after outcome := by
  induction first generalizing events with
  | done value =>
      simp only [done_bind, executes_done_iff]
      constructor
      · intro execution
        exact Or.inr ⟨value, [], events, rfl, ⟨rfl, rfl⟩, execution⟩
      · rintro (⟨_, ⟨_, absurdity⟩, _⟩ | ⟨_, _, after, rfl, ⟨rfl, same⟩, execution⟩)
        · cases absurdity
        · cases same
          exact execution
  | raise error =>
      simp only [raise_bind, executes_raise_iff]
      constructor
      · rintro ⟨rfl, rfl⟩
        exact Or.inl ⟨error, ⟨rfl, rfl⟩, rfl⟩
      · rintro (⟨_, ⟨rfl, same⟩, rfl⟩ | ⟨_, _, _, _, ⟨_, absurdity⟩, _⟩)
        · cases same
          exact ⟨rfl, rfl⟩
        · cases absurdity
  | call op next induction =>
      simp only [call_bind, executes_call_iff, induction]
      constructor
      · rintro ⟨answer, rest, rfl, failed | split⟩
        · rcases failed with ⟨error, stopped, rfl⟩
          exact Or.inl ⟨error, ⟨answer, rest, rfl, stopped⟩, rfl⟩
        · rcases split with ⟨value, before, after, rfl, ran, continued⟩
          exact Or.inr ⟨value, ⟨op, answer⟩ :: before, after, rfl,
            ⟨answer, before, rfl, ran⟩, continued⟩
      · rintro (failed | split)
        · rcases failed with ⟨error, ⟨answer, rest, rfl, stopped⟩, rfl⟩
          exact ⟨answer, rest, rfl, Or.inl ⟨error, stopped, rfl⟩⟩
        · rcases split with ⟨value, before, after, rfl, ran, continued⟩
          rcases ran with ⟨answer, rest, rfl, execution⟩
          exact ⟨answer, rest ++ after, rfl,
            Or.inr ⟨value, rest, after, rfl, execution, continued⟩⟩

/-- The calls and answers determine where an execution ends, and how. -/
theorem executes_append_inj {program : Program interface ε α}
    {events events' rest rest' : List (Event interface)}
    {outcome outcome' : Except ε α}
    (ran : program.Executes events outcome)
    (ran' : program.Executes events' outcome')
    (same : events ++ rest = events' ++ rest') :
    events = events' ∧ rest = rest' ∧ outcome = outcome' := by
  induction ran generalizing events' with
  | done value =>
      rcases executes_done_iff.mp ran' with ⟨rfl, rfl⟩
      exact ⟨rfl, same, rfl⟩
  | raise error =>
      rcases executes_raise_iff.mp ran' with ⟨rfl, rfl⟩
      exact ⟨rfl, same, rfl⟩
  | call answer _ induction =>
      rcases executes_call_iff.mp ran' with ⟨answer', later, rfl, continued⟩
      rw [List.cons_append, List.cons_append, List.cons.injEq,
        Event.mk.injEq] at same
      rcases same with ⟨⟨_, answers⟩, same⟩
      cases answers
      rcases induction continued same with ⟨rfl, rests, outcomes⟩
      exact ⟨rfl, rests, outcomes⟩

/-- Whoever answers every call, the program comes to an end. -/
theorem exists_executes (answers : (op : interface.Op) → interface.Answer op)
    (program : Program interface ε α) :
    ∃ events outcome,
      program.Executes events outcome ∧
        ∀ event ∈ events, event.answer = answers event.op := by
  induction program with
  | done value => exact ⟨[], .ok value, .done value, by simp⟩
  | raise error => exact ⟨[], .error error, .raise error, by simp⟩
  | call op next induction =>
      rcases induction (answers op) with ⟨events, outcome, ran, answered⟩
      exact
        ⟨⟨op, answers op⟩ :: events, outcome, .call (answers op) ran,
          List.forall_mem_cons.mpr ⟨rfl, answered⟩⟩

/-! ## The calls a program may make -/

/-- Whatever it is answered, the program makes no other calls. -/
def OnlyCalls (allowed : interface.Op → Prop) :
    Program interface ε α → Prop
  | .done _ => True
  | .raise _ => True
  | .call op next => allowed op ∧ ∀ answer, OnlyCalls allowed (next answer)

variable {allowed : interface.Op → Prop}

@[simp]
theorem onlyCalls_done (value : α) :
    OnlyCalls allowed (.done value : Program interface ε α) :=
  trivial

@[simp]
theorem onlyCalls_raise (error : ε) :
    OnlyCalls allowed (.raise error : Program interface ε α) :=
  trivial

theorem onlyCalls_bind
    {first : Program interface ε α} {second : α → Program interface ε β}
    (earlier : OnlyCalls allowed first)
    (later : ∀ value, OnlyCalls allowed (second value)) :
    OnlyCalls allowed (first >>= second) := by
  induction first with
  | done value => exact later value
  | raise error => trivial
  | call op next induction =>
      exact ⟨earlier.1, fun answer => induction answer (earlier.2 answer)⟩

/-- A program that makes only some calls makes only calls of a larger kind. -/
theorem OnlyCalls.mono {larger : interface.Op → Prop}
    (implies : ∀ op, allowed op → larger op)
    {program : Program interface ε α} (only : program.OnlyCalls allowed) :
    program.OnlyCalls larger := by
  induction program with
  | done value => trivial
  | raise error => trivial
  | call op next induction =>
      exact ⟨implies op only.1, fun answer => induction answer (only.2 answer)⟩

/-- Any program makes only calls of a kind that has them all. -/
theorem onlyCalls_of_always (always : ∀ op, allowed op)
    (program : Program interface ε α) : program.OnlyCalls allowed := by
  induction program with
  | done value => trivial
  | raise error => trivial
  | call op next induction => exact ⟨always op, induction⟩

/-- Every call of an execution is one the program may make. -/
theorem allowed_of_executes
    {program : Program interface ε α}
    {events : List (Event interface)} {outcome : Except ε α}
    (only : OnlyCalls allowed program)
    (executed : Executes program events outcome) :
    ∀ event ∈ events, allowed event.op := by
  induction executed with
  | done value => simp
  | raise error => simp
  | call answer _ induction =>
      intro event member
      rcases List.mem_cons.mp member with rfl | later
      · exact only.1
      · exact induction (only.2 answer) event later

/-! ## Programs over another interface -/

/-- Make the calls through another interface, and rename the errors. -/
def translate {source target : Interface} {ε' : Type}
    (op : source.Op → target.Op)
    (answer : ∀ call, target.Answer (op call) → source.Answer call)
    (error : ε → ε') : Program source ε α → Program target ε' α
  | .done value => .done value
  | .raise failure => .raise (error failure)
  | .call here next =>
      .call (op here) fun reply =>
        translate op answer error (next (answer here reply))

/-- A sequence is translated piece by piece. -/
theorem translate_bind {source target : Interface} {ε' : Type}
    {op : source.Op → target.Op}
    {answer : ∀ call, target.Answer (op call) → source.Answer call}
    {error : ε → ε'} (first : Program source ε α)
    (second : α → Program source ε β) :
    (first >>= second).translate op answer error =
      first.translate op answer error >>= fun value =>
        (second value).translate op answer error := by
  induction first with
  | done value => rfl
  | raise failure => rfl
  | call here next induction =>
      simp only [call_bind, translate]
      congr 1
      funext reply
      exact induction (answer here reply)

/-- A translated program makes the translated calls. -/
theorem onlyCalls_translate
    {source target : Interface} {ε' : Type}
    {op : source.Op → target.Op}
    {answer : ∀ call, target.Answer (op call) → source.Answer call}
    {error : ε → ε'} {before : source.Op → Prop}
    {after : target.Op → Prop}
    (translated : ∀ call, before call → after (op call))
    {program : Program source ε α} (only : program.OnlyCalls before) :
    (program.translate op answer error).OnlyCalls after := by
  induction program with
  | done value => trivial
  | raise failure => trivial
  | call here next induction =>
      exact ⟨translated here only.1,
        fun reply => induction _ (only.2 _)⟩

/-- What a translated program was answered, the program was answered. -/
theorem executes_of_translate
    {source target : Interface} {ε' : Type}
    {op : source.Op → target.Op}
    {answer : ∀ call, target.Answer (op call) → source.Answer call}
    {error : ε → ε'} {program : Program source ε α}
    {events : List (Event target)} {value : α}
    (ran :
      (program.translate op answer error).Executes events (.ok value)) :
    ∃ events' : List (Event source),
      program.Executes events' (.ok value) ∧
        ∀ event ∈ events',
          ∃ reply,
            ⟨op event.op, reply⟩ ∈ events ∧
              answer event.op reply = event.answer := by
  induction program generalizing events with
  | done result =>
      rcases executes_done_iff.mp ran with ⟨rfl, same⟩
      cases same
      exact ⟨[], .done value, by simp⟩
  | raise failure => cases ran
  | call here next induction =>
      rcases executes_call_iff.mp ran with ⟨reply, rest, rfl, continued⟩
      rcases induction (answer here reply) continued with
        ⟨events', ran', answered⟩
      refine
        ⟨_, .call (answer here reply) ran', List.forall_mem_cons.mpr ?_⟩
      refine ⟨⟨reply, List.mem_cons_self, rfl⟩, fun event member => ?_⟩
      rcases answered event member with ⟨reply', inside, same⟩
      exact ⟨reply', List.mem_cons_of_mem _ inside, same⟩

/-- Rename the errors of a program. -/
def mapError {ε' : Type} (error : ε → ε') (program : Program interface ε α) :
    Program interface ε' α :=
  program.translate id (fun _ answer => answer) error

theorem onlyCalls_mapError {ε' : Type} {error : ε → ε'}
    {program : Program interface ε α} (only : program.OnlyCalls allowed) :
    (program.mapError error).OnlyCalls allowed :=
  onlyCalls_translate (fun _ permitted => permitted) only

/-- Without an error the names of the errors make no difference. -/
theorem executes_of_mapError {ε' : Type} {error : ε → ε'}
    {program : Program interface ε α}
    {events : List (Event interface)} {value : α}
    (ran : (program.mapError error).Executes events (.ok value)) :
    program.Executes events (.ok value) := by
  induction program generalizing events with
  | done result =>
      rcases executes_done_iff.mp ran with ⟨rfl, same⟩
      cases same
      exact .done value
  | raise failure => cases ran
  | call op next induction =>
      rcases executes_call_iff.mp ran with ⟨answer, rest, rfl, continued⟩
      exact .call answer (induction answer continued)

/-- A handler whose value is wrapped into an answer has ended in the value. -/
theorem executes_of_answer {ε' : Type} {error : ε → ε'}
    {wrap : α → β} (injective : Function.Injective wrap)
    {program : Program interface ε α}
    {events : List (Event interface)} {value : α}
    (ran :
      (program.mapError error >>= fun found => pure (wrap found)).Executes
        events (.ok (wrap value))) :
    program.Executes events (.ok value) := by
  rcases executes_bind_iff.mp ran with failed | answered
  · rcases failed with ⟨error, _, absurdity⟩
    cases absurdity
  · rcases answered with ⟨found, before, after, rfl, ended, wrapped⟩
    rcases executes_done_iff.mp wrapped with ⟨rfl, same⟩
    rw [injective (Except.ok.inj same), List.append_nil]
    exact executes_of_mapError ended

end Program

end Trackward.Lib.Programs
