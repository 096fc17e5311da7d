import Trackward.Lib.Programs

/-!
# Partial executions

`Leaves` says what a program has left after some calls and answers, whether it
ends there or not.  `Tracks` is a specification of all of these at once: each
call suits the calls and answers before it, and so does the end.  It is checked
along the program, with the usual rule for sequencing.
-/

namespace Trackward.Lib.Programs.Program

variable {interface : Interface} {ε α β : Type}

/-! ## What is left of a program -/

/-- What a program has left after these calls and answers. -/
inductive Leaves :
    Program interface ε α → List (Event interface) →
      Program interface ε α → Prop where
  | stop (program : Program interface ε α) : Leaves program [] program
  | call {op : interface.Op}
      {next : interface.Answer op → Program interface ε α}
      (answer : interface.Answer op) {events : List (Event interface)}
      {left : Program interface ε α}
      (rest : Leaves (next answer) events left) :
      Leaves (.call op next) (⟨op, answer⟩ :: events) left

theorem leaves_nil {program left : Program interface ε α}
    (leaves : Leaves program [] left) : left = program := by
  generalize nothing : ([] : List (Event interface)) = events at leaves
  cases leaves with
  | stop => rfl
  | call answer rest => cases nothing

theorem leaves_cons {program left : Program interface ε α}
    {op : interface.Op} {answer : interface.Answer op}
    {events : List (Event interface)}
    (leaves : Leaves program (⟨op, answer⟩ :: events) left) :
    ∃ next, program = .call op next ∧ Leaves (next answer) events left := by
  cases leaves with
  | call answer rest => exact ⟨_, rfl, rest⟩

/-- One more answer to what is left. -/
theorem Leaves.concat {program : Program interface ε α}
    {events : List (Event interface)} {op : interface.Op}
    {next : interface.Answer op → Program interface ε α}
    (leaves : Leaves program events (.call op next))
    (answer : interface.Answer op) :
    Leaves program (events ++ [⟨op, answer⟩]) (next answer) := by
  generalize pending : Program.call op next = left at leaves
  induction leaves with
  | stop program =>
      subst pending
      exact .call answer (.stop _)
  | call earlier _ induction => exact .call earlier (induction pending)

/-- The last answer was to a call that was left. -/
theorem leaves_concat {program left : Program interface ε α}
    {events : List (Event interface)} {op : interface.Op}
    {answer : interface.Answer op}
    (leaves : Leaves program (events ++ [⟨op, answer⟩]) left) :
    ∃ next, Leaves program events (.call op next) ∧ left = next answer := by
  induction events generalizing program with
  | nil =>
      rcases leaves_cons leaves with ⟨next, rfl, rest⟩
      exact ⟨next, .stop _, leaves_nil rest⟩
  | cons event events induction =>
      rcases leaves_cons leaves with ⟨later, rfl, rest⟩
      rcases induction rest with ⟨next, earlier, same⟩
      exact ⟨next, .call event.answer earlier, same⟩

/-- What a program was answered it has called. -/
theorem Leaves.allowed {allowed : interface.Op → Prop}
    {program left : Program interface ε α} {events : List (Event interface)}
    (leaves : Leaves program events left)
    (only : program.OnlyCalls allowed) :
    ∀ event ∈ events, allowed event.op := by
  induction leaves with
  | stop program => simp
  | call answer _ induction =>
      exact
        List.forall_mem_cons.mpr ⟨only.1, induction (only.2 answer)⟩

/-- How a program that makes no more calls has ended. -/
def ended : Program interface ε α → Option (Except ε α)
  | .done value => some (.ok value)
  | .raise error => some (.error error)
  | .call _ _ => none

/-- A program of which no call is left has been executed. -/
theorem Leaves.executes {program left : Program interface ε α}
    {events : List (Event interface)} {outcome : Except ε α}
    (leaves : Leaves program events left)
    (ended : left.ended = some outcome) : program.Executes events outcome := by
  induction leaves with
  | stop program =>
      cases program with
      | done value =>
          cases ended
          exact .done value
      | raise error =>
          cases ended
          exact .raise error
      | call op next => cases ended
  | call answer _ induction => exact .call answer (induction ended)

/-- A program that was left can be run to its end, if its calls are answered. -/
theorem Leaves.exists_executes {allowed : interface.Op → Prop}
    {each : Event interface → Prop}
    (answers : ∀ op, allowed op → ∃ answer, each ⟨op, answer⟩)
    {program left : Program interface ε α} {past : List (Event interface)}
    (leaves : Leaves program past left) (only : program.OnlyCalls allowed) :
    ∃ rest outcome,
      program.Executes (past ++ rest) outcome ∧
        ∀ event ∈ rest, each event := by
  induction leaves with
  | stop program =>
      induction program with
      | done value => exact ⟨[], _, .done value, by simp⟩
      | raise error => exact ⟨[], _, .raise error, by simp⟩
      | call op next induction =>
          rcases answers op only.1 with ⟨answer, suits⟩
          rcases induction answer (only.2 answer) with
            ⟨rest, outcome, ran, suit⟩
          exact
            ⟨_ :: rest, outcome, .call answer ran,
              List.forall_mem_cons.mpr ⟨suits, suit⟩⟩
  | call answer _ induction =>
      rcases induction (only.2 answer) with ⟨rest, outcome, ran, suit⟩
      exact ⟨rest, outcome, .call answer ran, suit⟩

/-! ## Specifications of partial executions -/

/--
Whatever it is answered, each call of the program suits the calls and answers
before it, and so does its outcome.
-/
def Tracks (each : List (Event interface) → interface.Op → Prop)
    (ends : List (Event interface) → Except ε α → Prop) :
    Program interface ε α → List (Event interface) → Prop
  | .done value, past => ends past (.ok value)
  | .raise error, past => ends past (.error error)
  | .call op next, past =>
      each past op ∧
        ∀ answer, Tracks each ends (next answer) (past ++ [⟨op, answer⟩])

variable {each : List (Event interface) → interface.Op → Prop}

/-- The end of a program suits the calls and answers before it. -/
theorem Tracks.ended {ends : List (Event interface) → Except ε α → Prop}
    {program : Program interface ε α} {past : List (Event interface)}
    {outcome : Except ε α} (tracks : program.Tracks each ends past)
    (returned : program.ended = some outcome) :
    ends past outcome := by
  cases program with
  | done value =>
      cases returned
      exact tracks
  | raise error =>
      cases returned
      exact tracks
  | call op next => cases returned

/-- The rule of consequence. -/
theorem Tracks.weaken
    {strong weak : List (Event interface) → Except ε α → Prop}
    (weaker : ∀ past outcome, strong past outcome → weak past outcome)
    {program : Program interface ε α} {past : List (Event interface)}
    (tracks : program.Tracks each strong past) :
    program.Tracks each weak past := by
  induction program generalizing past with
  | done value => exact weaker _ _ tracks
  | raise error => exact weaker _ _ tracks
  | call op next induction =>
      exact ⟨tracks.1, fun answer => induction answer (tracks.2 answer)⟩

/-- Any program tracks what always holds. -/
theorem tracks_of_always
    {ends : List (Event interface) → Except ε α → Prop}
    (everyCall : ∀ past op, each past op)
    (everyEnd : ∀ past outcome, ends past outcome)
    (program : Program interface ε α) (past : List (Event interface)) :
    program.Tracks each ends past := by
  induction program generalizing past with
  | done value => exact everyEnd past _
  | raise error => exact everyEnd past _
  | call op next induction =>
      exact ⟨everyCall past op, fun answer => induction answer _⟩

/-- What holds after the first program of a sequence. -/
def Between (each : List (Event interface) → interface.Op → Prop)
    (ends : List (Event interface) → Except ε β → Prop)
    (second : α → Program interface ε β) (past : List (Event interface)) :
    Except ε α → Prop
  | .ok value => (second value).Tracks each ends past
  | .error error => ends past (.error error)

/-- The rule of sequencing. -/
theorem tracks_bind {first : Program interface ε α}
    {second : α → Program interface ε β}
    {ends : List (Event interface) → Except ε β → Prop}
    {past : List (Event interface)}
    (tracks : first.Tracks each (Between each ends second) past) :
    (first >>= second).Tracks each ends past := by
  induction first generalizing past with
  | done value => exact tracks
  | raise error => exact tracks
  | call op next induction =>
      exact ⟨tracks.1, fun answer => induction answer (tracks.2 answer)⟩

/-- What is left of a program suits what was done before. -/
theorem Leaves.tracks
    {ends : List (Event interface) → Except ε α → Prop}
    {program left : Program interface ε α}
    {events past : List (Event interface)}
    (leaves : Leaves program events left)
    (tracks : program.Tracks each ends past) :
    left.Tracks each ends (past ++ events) := by
  induction leaves generalizing past with
  | stop program =>
      rw [List.append_nil]
      exact tracks
  | call answer _ induction =>
      have later := induction (tracks.2 answer)
      rwa [List.append_assoc] at later

/-- A program whose calls are all of one kind only adds such calls. -/
theorem tracks_of_onlyCalls {allowed : interface.Op → Prop}
    {program : Program interface ε α} {past : List (Event interface)}
    (only : program.OnlyCalls allowed)
    (suits :
      ∀ events op, (∀ event ∈ events, allowed event.op) → allowed op →
        each (past ++ events) op) :
    program.Tracks each
      (fun later outcome =>
        ∃ events,
          later = past ++ events ∧ (∀ event ∈ events, allowed event.op) ∧
            program.Executes events outcome)
      past := by
  induction program generalizing past with
  | done value =>
      exact ⟨[], (List.append_nil past).symm, by simp, .done value⟩
  | raise error =>
      exact ⟨[], (List.append_nil past).symm, by simp, .raise error⟩
  | call op next induction =>
      have here := suits [] op (by simp) only.1
      rw [List.append_nil] at here
      refine ⟨here, fun answer => ?_⟩
      refine Tracks.weaken ?_ (induction answer (only.2 answer) ?_)
      · rintro later outcome ⟨events, rfl, kinds, ran⟩
        refine ⟨⟨op, answer⟩ :: events, by simp, ?_, .call answer ran⟩
        exact List.forall_mem_cons.mpr ⟨only.1, kinds⟩
      · intro events other kinds permitted
        have suited :=
          suits (⟨op, answer⟩ :: events) other
            (List.forall_mem_cons.mpr ⟨only.1, kinds⟩) permitted
        rwa [List.append_assoc, List.singleton_append]

/-- A call that stands for one of a kind. -/
def Translates {source target : Interface} (op : source.Op → target.Op)
    (allowed : source.Op → Prop) (lower : target.Op) : Prop :=
  ∃ call, allowed call ∧ lower = op call

/-- A translated program only adds translated calls. -/
theorem tracks_of_translate {source target : Interface} {ε' : Type}
    {op : source.Op → target.Op}
    {answer : ∀ call, target.Answer (op call) → source.Answer call}
    {error : ε → ε'} {allowed : source.Op → Prop}
    {each : List (Event target) → target.Op → Prop}
    {program : Program source ε α} {past : List (Event target)}
    (only : program.OnlyCalls allowed)
    (suits :
      ∀ events call, (∀ event ∈ events, Translates op allowed event.op) →
        allowed call → each (past ++ events) (op call)) :
    (program.translate op answer error).Tracks each
      (fun later outcome =>
        ∃ events,
          later = past ++ events ∧
            (∀ event ∈ events, Translates op allowed event.op) ∧
              (program.translate op answer error).Executes events outcome)
      past := by
  have translated (call : source.Op) (permitted : allowed call) :
      Translates op allowed (op call) := ⟨call, permitted, rfl⟩
  refine tracks_of_onlyCalls (onlyCalls_translate translated only) ?_
  rintro events lower kinds ⟨call, permitted, rfl⟩
  exact suits events call kinds permitted

end Trackward.Lib.Programs.Program
