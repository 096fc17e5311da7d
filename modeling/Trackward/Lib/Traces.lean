import Trackward.Lib.Progress
import Trackward.Lib.Sessions
import Mathlib.Data.List.Basic

/-!
# Runs as lists of steps

A `Path` is a run with the states it goes through.  Along a path a session that
does not depart is `Visited`: its program receives the answers of its own
moves, one after the other, while the shared state moves on in between.  What
the program made of these answers is an execution in the sequential meaning of
programs.
-/

namespace Trackward.Lib.Traces

open Trackward.Lib.Programs
open Trackward.Lib.Runs
open Trackward.Lib.Sessions

/-! ## Paths -/

section Paths

variable {State Move : Type} {system : System State Move}

/-- A run between two states: the states it leaves, and its moves in them. -/
inductive Path (system : System State Move) :
    State → List (State × Move) → State → Prop where
  | stop (state : State) : Path system state [] state
  | step {state target last : State} {move : Move}
      {steps : List (State × Move)}
      (moved : system.step state move = some target)
      (rest : Path system target steps last) :
      Path system state ((state, move) :: steps) last

/-- A run can be interrupted at each of its steps. -/
theorem Path.split {first last : State}
    {steps steps' : List (State × Move)} {step : State × Move}
    (path : Path system first (steps ++ step :: steps') last) :
    Path system first steps step.1 ∧
      Path system step.1 (step :: steps') last := by
  induction steps generalizing first with
  | nil =>
      cases path with
      | step moved rest => exact ⟨.stop _, .step moved rest⟩
  | cons earlier steps induction =>
      cases path with
      | step moved rest =>
          exact ⟨.step moved (induction rest).1, (induction rest).2⟩

/-- A run goes on from a reachable state through reachable states. -/
theorem Path.reachable {first last : State} {steps : List (State × Move)}
    (path : Path system first steps last)
    (reached : Reachable system unrestricted first) :
    Reachable system unrestricted last ∧
      ∀ step ∈ steps, Reachable system unrestricted step.1 := by
  induction path with
  | stop state => exact ⟨reached, by simp⟩
  | step moved _ induction =>
      rcases induction (.next reached trivial moved) with ⟨last, inside⟩
      exact ⟨last, List.forall_mem_cons.mpr ⟨reached, inside⟩⟩

/-- The states a run goes through. -/
def states (steps : List (State × Move)) (last : State) : List State :=
  steps.map Prod.fst ++ [last]

/-- The state after a number of moves. -/
def stateAt (steps : List (State × Move)) (last : State) (moves : Nat) :
    State :=
  ((steps.map Prod.fst)[moves]?).getD last

theorem stateAt_mem_states (steps : List (State × Move)) (last : State)
    (moves : Nat) : stateAt steps last moves ∈ states steps last := by
  unfold stateAt
  cases found : (steps.map Prod.fst)[moves]? with
  | none => exact List.mem_append_right _ (List.mem_singleton_self last)
  | some state => exact List.mem_append_left _ (List.mem_of_getElem? found)

theorem Path.reachable_stateAt {first last : State}
    {steps : List (State × Move)} (path : Path system first steps last)
    (reached : Reachable system unrestricted first) (moves : Nat) :
    Reachable system unrestricted (stateAt steps last moves) := by
  rcases path.reachable reached with ⟨atEnd, inside⟩
  rcases List.mem_append.mp (stateAt_mem_states steps last moves) with
    earlier | atLast
  · rcases List.mem_map.mp earlier with ⟨step, member, same⟩
    rw [← same]
    exact inside step member
  · rw [List.mem_singleton.mp atLast]
    exact atEnd

theorem stateAt_eq_last {steps : List (State × Move)} {last : State}
    {moves : Nat} (beyond : steps.length ≤ moves) :
    stateAt steps last moves = last := by
  rw [stateAt, List.getElem?_eq_none (by simpa using beyond),
    Option.getD_none]

theorem exists_stateAt_of_mem_states {steps : List (State × Move)}
    {last state : State} (member : state ∈ states steps last) :
    ∃ moves ≤ steps.length, stateAt steps last moves = state := by
  rcases List.mem_append.mp member with inside | atEnd
  · rcases List.getElem?_of_mem inside with ⟨moves, here⟩
    have bounded := (List.getElem?_eq_some_iff.mp here).1
    rw [List.length_map] at bounded
    exact ⟨moves, Nat.le_of_lt bounded, by rw [stateAt, here, Option.getD_some]⟩
  · refine ⟨steps.length, Nat.le_refl _, ?_⟩
    rw [List.mem_singleton.mp atEnd, stateAt_eq_last (Nat.le_refl _)]

@[simp]
theorem stateAt_cons_succ (step : State × Move)
    (steps : List (State × Move)) (last : State) (moves : Nat) :
    stateAt (step :: steps) last (moves + 1) = stateAt steps last moves :=
  rfl

theorem Path.stateAt_zero {first last : State}
    {steps : List (State × Move)} (path : Path system first steps last) :
    stateAt steps last 0 = first := by
  cases path <;> rfl

/-- Each state of a run comes from the one before by a move. -/
theorem Path.step_stateAt {first last : State}
    {steps : List (State × Move)} (path : Path system first steps last)
    {moves : Nat} (inside : moves < steps.length) :
    ∃ move,
      system.step (stateAt steps last moves) move =
        some (stateAt steps last (moves + 1)) := by
  induction path generalizing moves with
  | stop state => cases inside
  | @step state target last move steps moved rest induction =>
      cases moves with
      | zero =>
          refine ⟨move, ?_⟩
          rw [stateAt_cons_succ, rest.stateAt_zero]
          exact moved
      | succ moves =>
          exact induction (Nat.lt_of_succ_lt_succ inside)

/-- What each move preserves, a run preserves between any two moments. -/
theorem Path.grows_stateAt {grows : State → State → Prop}
    (reflexive : ∀ state, grows state state)
    (transitive :
      ∀ first second third, grows first second → grows second third →
        grows first third)
    (grown :
      ∀ state move target, system.step state move = some target →
        grows state target)
    {first last : State} {steps : List (State × Move)}
    (path : Path system first steps last) {earlier later : Nat}
    (ordered : earlier ≤ later) :
    grows (stateAt steps last earlier) (stateAt steps last later) := by
  induction ordered with
  | refl => exact reflexive _
  | @step later ordered induction =>
      refine transitive _ _ _ induction ?_
      rcases Nat.lt_or_ge later steps.length with inside | beyond
      · rcases path.step_stateAt inside with ⟨move, moved⟩
        exact grown _ move _ moved
      · rw [stateAt_eq_last beyond, stateAt_eq_last (Nat.le_succ_of_le beyond)]
        exact reflexive last

/-- Play a schedule and keep the states it leaves. -/
def trace (system : System State Move) :
    State → List Move → Option (List (State × Move) × State)
  | state, [] => some ([], state)
  | state, move :: moves =>
      match system.step state move with
      | none => none
      | some target =>
          match trace system target moves with
          | none => none
          | some (steps, last) => some ((state, move) :: steps, last)

theorem path_of_trace {first last : State} {moves : List Move}
    {steps : List (State × Move)}
    (played : trace system first moves = some (steps, last)) :
    Path system first steps last := by
  induction moves generalizing first steps with
  | nil =>
      cases played
      exact .stop _
  | cons move moves induction =>
      rw [trace] at played
      split at played
      · cases played
      · rename_i target moved
        split at played
        · cases played
        · rename_i rest reached continued
          cases played
          exact .step moved (induction continued)

theorem map_snd_of_trace {first last : State} {moves : List Move}
    {steps : List (State × Move)}
    (played : trace system first moves = some (steps, last)) :
    steps.map Prod.snd = moves := by
  induction moves generalizing first steps with
  | nil =>
      cases played
      rfl
  | cons move moves induction =>
      rw [trace] at played
      split at played
      · cases played
      · split at played
        · cases played
        · rename_i continued
          cases played
          rw [List.map_cons, induction continued]

/-- A schedule that plays through and passes a check is a run that does. -/
theorem exists_path_of_trace {first : State} (moves : List Move)
    (check : List (State × Move) → State → Bool)
    (played :
      (trace system first moves).any (fun run => check run.1 run.2) = true) :
    ∃ steps last,
      Path system first steps last ∧ steps.map Prod.snd = moves ∧
        check steps last = true := by
  cases result : trace system first moves with
  | none =>
      rw [result] at played
      cases played
  | some run =>
      rw [result, Option.any_some] at played
      exact
        ⟨run.1, run.2, path_of_trace result, map_snd_of_trace result, played⟩

end Paths

/-! ## Visited programs -/

variable {Client Request Choice Shared : Type}
variable {interface : Interface} {ε α β : Type}

/-- A call that was answered, between the states before and after it. -/
structure Visit (interface : Interface) (Shared : Type) where
  before : Shared
  event : Program.Event interface
  after : Shared

/-- What is left of a program after these answers. -/
inductive Visited (host : Host interface Client Choice Shared)
    (client : Client) :
    Program interface ε α → List (Visit interface Shared) →
      Program interface ε α → Prop where
  | stop (program : Program interface ε α) :
      Visited host client program [] program
  | visit {op : interface.Op}
      {next : interface.Answer op → Program interface ε α}
      (choice : Choice) {answer : interface.Answer op}
      {before after : Shared} {visits : List (Visit interface Shared)}
      {left : Program interface ε α}
      (responded :
        host.respond client choice op before = some (answer, after))
      (rest : Visited host client (next answer) visits left) :
      Visited host client (.call op next)
        (⟨before, ⟨op, answer⟩, after⟩ :: visits) left

/-- What is left of a program, without the states it was served in. -/
theorem Visited.leaves
    {host : Host interface Client Choice Shared} {client : Client}
    {program left : Program interface ε α}
    {visits : List (Visit interface Shared)}
    (visited : Visited host client program visits left) :
    Program.Leaves program (visits.map Visit.event) left := by
  induction visited with
  | stop program => exact .stop program
  | visit choice responded _ induction => exact .call _ induction

/-- Each visit is an answer of the host. -/
theorem Visited.responded
    {host : Host interface Client Choice Shared} {client : Client}
    {program left : Program interface ε α}
    {visits : List (Visit interface Shared)}
    (visited : Visited host client program visits left) :
    ∀ visit ∈ visits, ∃ choice,
      host.respond client choice visit.event.op visit.before =
        some (visit.event.answer, visit.after) := by
  induction visited with
  | stop program => simp
  | visit choice responded _ induction =>
      exact List.forall_mem_cons.mpr ⟨⟨choice, responded⟩, induction⟩

variable [DecidableEq Client]

/-- The move answers a call of the client. -/
def isAnswer (client : Client) : Move Client Request Choice → Bool
  | .answer other _ => other = client
  | _ => false

theorem isAnswer_eq_false {client : Client}
    {move : Move Client Request Choice}
    (other : ∀ choice, move ≠ .answer client choice) :
    isAnswer client move = false := by
  cases move with
  | arrive | depart => rfl
  | answer caller choice =>
      apply decide_eq_false
      rintro rfl
      exact other choice rfl

/-- The client does not depart on the way. -/
def Stays {State : Type} (client : Client)
    (steps : List (State × Move Client Request Choice)) : Prop :=
  ∀ step ∈ steps, step.2 ≠ .depart client

omit [DecidableEq Client] in
theorem stays_of_moves {State : Type} {client : Client}
    {steps : List (State × Move Client Request Choice)}
    (absent : .depart client ∉ steps.map Prod.snd) : Stays client steps := by
  intro step member departs
  exact absent (departs ▸ List.mem_map_of_mem member)

/-- The steps that answer a call of the client. -/
def answered {State : Type} (client : Client)
    (steps : List (State × Move Client Request Choice)) :
    List (State × Move Client Request Choice) :=
  steps.filter fun step => isAnswer client step.2

/-- How many moves were made before one of the client's calls was answered. -/
def answeredAt {State : Type} (client : Client)
    (steps : List (State × Move Client Request Choice)) (calls : Nat) :
    Nat :=
  steps.findIdxNth (fun step => isAnswer client step.2) calls

theorem stateAt_answeredAt {State : Type} {client : Client}
    {steps : List (State × Move Client Request Choice)} {calls : Nat}
    {step : State × Move Client Request Choice} (last : State)
    (here : (answered client steps)[calls]? = some step) :
    answeredAt client steps calls < steps.length ∧
      stateAt steps last (answeredAt client steps calls) = step.1 := by
  rcases List.getElem?_eq_some_iff.mp here with ⟨bounded, same⟩
  unfold answered at bounded same
  have inside : answeredAt client steps calls < steps.length := by
    apply List.findIdxNth_lt_length_of_lt_countP
    rwa [List.countP_eq_length_filter]
  refine ⟨inside, ?_⟩
  rw [List.getElem_filter_eq_getElem_getElem_findIdxs] at same
  simp only [List.getElem_findIdxs_eq_findIdxNth] at same
  have found : steps[answeredAt client steps calls]? = some step := by
    rw [List.getElem?_eq_getElem inside]
    exact congrArg some same
  rw [stateAt, List.getElem?_map, found]
  rfl

/-- The first answer comes after steps that answered nothing. -/
theorem answered_of_first {State : Type} {client : Client}
    {earlier : List (State × Move Client Request Choice)}
    (none : answered client earlier = []) (before : State) (choice : Choice)
    (later : List (State × Move Client Request Choice)) :
    answered client (earlier ++ (before, .answer client choice) :: later) =
      (before, .answer client choice) :: answered client later := by
  rw [answered] at none
  rw [answered, answered, List.filter_append, none,
    List.filter_cons_of_pos (by simp [isAnswer]), List.nil_append]

/-- A session that stays is visited by the answers of its own moves. -/
theorem Path.visited
    {host : Host interface Client Choice Shared}
    {serve : Request → Program interface ε α} {initial : Shared → Prop}
    {client : Client}
    {world last : World interface Client Request Shared ε α}
    {steps :
      List (World interface Client Request Shared ε α ×
        Move Client Request Choice)}
    (path : Path (system host serve initial) world steps last)
    (stays : Stays client steps)
    {session : Session interface Request ε α}
    (present : world.sessions client = some session) :
    ∃ left visits,
      last.sessions client =
          some ⟨session.request, session.calls + visits.length, left⟩ ∧
        Visited host client session.program visits left ∧
          visits.map Visit.before =
            (answered client steps).map (fun step => step.1.shared) := by
  induction path generalizing session with
  | stop world => exact ⟨session.program, [], present, .stop _, rfl⟩
  | @step world target last move steps moved rest induction =>
      have staysLater : Stays client steps := fun step member =>
        stays step (List.mem_cons_of_mem _ member)
      rcases
          World.step_session moved present (stays _ List.mem_cons_self) with
        elsewhere | called
      · rcases elsewhere with ⟨kept, other⟩
        rcases induction staysLater kept with
          ⟨left, visits, found, visited, befores⟩
        refine ⟨left, visits, found, visited, ?_⟩
        rw [befores, answered, answered,
          List.filter_cons_of_neg (by simp [isAnswer_eq_false other])]
      · rcases called with
          ⟨choice, op, next, reply, rfl, program, responded, onward⟩
        rcases induction staysLater onward with
          ⟨left, visits, found, visited, befores⟩
        refine
          ⟨left, ⟨world.shared, ⟨op, reply⟩, target.shared⟩ :: visits, ?_, ?_,
            ?_⟩
        · rw [found, List.length_cons, Nat.add_right_comm, Nat.add_assoc]
        · rw [program]
          exact .visit choice responded visited
        · rw [List.map_cons, befores, answered, answered,
            List.filter_cons_of_pos (by simp [isAnswer]), List.map_cons]

/-- A session that stays is there at each step, for the same request. -/
theorem Path.present
    {host : Host interface Client Choice Shared}
    {serve : Request → Program interface ε α} {initial : Shared → Prop}
    {client : Client}
    {world last : World interface Client Request Shared ε α}
    {steps :
      List (World interface Client Request Shared ε α ×
        Move Client Request Choice)}
    (path : Path (system host serve initial) world steps last)
    (stays : Stays client steps)
    {session : Session interface Request ε α}
    (present : world.sessions client = some session) :
    ∀ step ∈ steps, ∃ calls program,
      step.1.sessions client = some ⟨session.request, calls, program⟩ := by
  intro step member
  rcases List.append_of_mem member with ⟨earlier, later, rfl⟩
  have staysEarlier : Stays client earlier := fun step member =>
    stays step (List.mem_append_left _ member)
  rcases path.split.1.visited staysEarlier present with
    ⟨left, visits, found, _⟩
  exact ⟨_, left, found⟩

/-- A waiting session that stays and has moved on was answered a first time. -/
theorem Path.exists_firstAnswer
    {host : Host interface Client Choice Shared}
    {serve : Request → Program interface ε α} {initial : Shared → Prop}
    {client : Client}
    {world last : World interface Client Request Shared ε α}
    {steps :
      List (World interface Client Request Shared ε α ×
        Move Client Request Choice)}
    (path : Path (system host serve initial) world steps last)
    (stays : Stays client steps) {request : Request} {calls : Nat}
    {op : interface.Op} {next : interface.Answer op → Program interface ε α}
    (waits : world.sessions client = some ⟨request, calls, .call op next⟩)
    (moved : last.sessions client ≠ some ⟨request, calls, .call op next⟩) :
    ∃ earlier before choice later target answer,
      steps = earlier ++ (before, .answer client choice) :: later ∧
        answered client earlier = [] ∧
          host.respond client choice op before.shared =
              some (answer, target.shared) ∧
            target.sessions client =
                some ⟨request, calls + 1, next answer⟩ ∧
              Path (system host serve initial) target later last := by
  induction path with
  | stop world => exact absurd waits moved
  | @step world target last move steps step rest induction =>
      have staysLater : Stays client steps := fun step member =>
        stays step (List.mem_cons_of_mem _ member)
      rcases World.step_session step waits (stays _ List.mem_cons_self) with
        elsewhere | called
      · rcases elsewhere with ⟨kept, other⟩
        rcases induction staysLater kept moved with
          ⟨earlier, before, choice, later, target', answer, rfl, none, found⟩
        refine
          ⟨(world, move) :: earlier, before, choice, later, target', answer,
            rfl, ?_, found⟩
        rw [answered,
          List.filter_cons_of_neg (by simp [isAnswer_eq_false other])]
        exact none
      · rcases called with
          ⟨choice, op', next', reply, rfl, program, responded, onward⟩
        cases program
        exact
          ⟨[], world, choice, steps, target, reply, rfl, rfl, responded,
            onward, rest⟩

end Trackward.Lib.Traces
