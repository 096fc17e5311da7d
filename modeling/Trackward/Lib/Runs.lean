import Mathlib.Logic.Function.Basic

/-!
# Runs of a guarded transition system

A `System` is a set of initial states and a partial step function: the
environment proposes a move, and the step function either refuses it or
answers with the next state.  `Reachable` collects the states of every run
whose moves are all `permitted` in the state where they are made, so one
relation serves both for unrestricted runs and for runs that keep a
discipline.

The induction over runs is stated once, as `Reachable.invariant`.  A concrete
schedule is replayed by the executable `System.replay`.
-/

namespace Trackward.Lib.Runs

variable {State Move : Type}

/-- A state machine whose moves are chosen by its environment. -/
structure System (State Move : Type) where
  initial : State → Prop
  step : State → Move → Option State

/-- The guard of an unrestricted run. -/
def unrestricted : State → Move → Prop :=
  fun _ _ => True

/-- States reached by a run whose moves are all permitted where they are made. -/
inductive Reachable
    (system : System State Move)
    (permitted : State → Move → Prop) : State → Prop where
  | start {state : State} (isInitial : system.initial state) :
      Reachable system permitted state
  | next {state target : State} {move : Move}
      (reached : Reachable system permitted state)
      (allowed : permitted state move)
      (moved : system.step state move = some target) :
      Reachable system permitted target

/-- A predicate that holds initially and survives every permitted move. -/
theorem Reachable.invariant
    {system : System State Move}
    {permitted : State → Move → Prop}
    (holds : State → Prop)
    (base : ∀ state, system.initial state → holds state)
    (preserved :
      ∀ state move target,
        holds state → permitted state move →
          system.step state move = some target → holds target)
    {state : State}
    (reached : Reachable system permitted state) :
    holds state := by
  induction reached with
  | start isInitial =>
      exact base _ isInitial
  | next _ allowed moved induction =>
      exact preserved _ _ _ induction allowed moved

/-- Weakening the discipline only adds runs. -/
theorem Reachable.weaken
    {system : System State Move}
    {strict loose : State → Move → Prop}
    (weaker : ∀ state move, strict state move → loose state move)
    {state : State}
    (reached : Reachable system strict state) :
    Reachable system loose state := by
  induction reached with
  | start isInitial =>
      exact .start isInitial
  | next _ allowed moved induction =>
      exact .next induction (weaker _ _ allowed) moved

/-- More initial states only add runs. -/
theorem Reachable.ofInitial
    {initial more : State → Prop} {step : State → Move → Option State}
    {permitted : State → Move → Prop}
    (weaker : ∀ state, initial state → more state)
    {state : State}
    (reached : Reachable ⟨initial, step⟩ permitted state) :
    Reachable ⟨more, step⟩ permitted state := by
  induction reached with
  | start isInitial =>
      exact .start (weaker _ isInitial)
  | next _ allowed moved induction =>
      exact .next induction allowed moved

/-- Play a schedule, failing at the first move that is not possible. -/
def System.replay (system : System State Move) (guard : State → Move → Bool) :
    State → List Move → Option State
  | state, [] => some state
  | state, move :: moves =>
      if guard state move then
        match system.step state move with
        | none => none
        | some target => System.replay system guard target moves
      else none

/-- A schedule whose moves pass the guard reaches its final state. -/
theorem Reachable.replay
    {system : System State Move} {permitted : State → Move → Prop}
    {guard : State → Move → Bool}
    (sound : ∀ state move, guard state move = true → permitted state move)
    {state target : State}
    (reached : Reachable system permitted state)
    (moves : List Move)
    (played : system.replay guard state moves = some target) :
    Reachable system permitted target := by
  induction moves generalizing state with
  | nil =>
      simp only [System.replay, Option.some.injEq] at played
      exact played ▸ reached
  | cons move moves induction =>
      simp only [System.replay, Option.ite_none_right_eq_some] at played
      rcases played with ⟨allowed, played⟩
      cases moved : system.step state move with
      | none => simp [moved] at played
      | some middle =>
          rw [moved] at played
          exact
            induction (.next reached (sound state move allowed) moved) played

/-- A schedule that plays through and passes a check reaches such a state. -/
theorem Reachable.exists_of_replay
    {system : System State Move} {permitted : State → Move → Prop}
    {guard : State → Move → Bool}
    (sound : ∀ state move, guard state move = true → permitted state move)
    {state : State} (isInitial : system.initial state) (moves : List Move)
    (check : State → Bool)
    (played : (system.replay guard state moves).any check = true) :
    ∃ target, Reachable system permitted target ∧ check target = true := by
  cases result : system.replay guard state moves with
  | none => simp [result] at played
  | some target =>
      rw [result, Option.any_some] at played
      exact
        ⟨target, Reachable.replay sound (.start isInitial) moves result,
          played⟩

/-- The guard of an unrestricted run refuses no move. -/
def anyMove : State → Move → Bool :=
  fun _ _ => true

theorem unrestricted_of_anyMove (state : State) (move : Move)
    (_ : anyMove state move = true) : unrestricted state move :=
  trivial

end Trackward.Lib.Runs
