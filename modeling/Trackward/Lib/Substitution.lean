import Trackward.Lib.Progress
import Trackward.Lib.Sessions
import Mathlib.Data.List.Induction

/-!
# Calls that are programs themselves

A handler calls on an interface, and what stands behind a call may be a
program again, over an interface of a lower level.  `substitute` puts these
programs in the place of the calls.

A host of the lower level then stands for one of the higher level: it answers
a call in many steps, among which those of other clients are interleaved, and
the higher host answers it at the last of these steps.  `Simulates` says what
is to be shown of one step, and `exists_simulated` is what follows for runs.
-/

namespace Trackward.Lib.Substitution

open Trackward.Lib.Programs
open Trackward.Lib.Programs.Program (Leaves ended)
open Trackward.Lib.Runs
open Trackward.Lib.Sessions

variable {source target : Interface} {ε α β : Type}

/-! ## Substitution -/

/-- Run a program that raises nothing, then the program its value selects. -/
def splice (first : Program target Empty α)
    (second : α → Program target ε β) : Program target ε β :=
  match first with
  | .done value => second value
  | .call op next => .call op fun answer => splice (next answer) second

/-- An execution of both programs is one of each. -/
theorem executes_splice {first : Program target Empty α}
    {second : α → Program target ε β} {events : List (Program.Event target)}
    {outcome : Except ε β}
    (executed : (splice first second).Executes events outcome) :
    ∃ value before after,
      events = before ++ after ∧ first.Executes before (.ok value) ∧
        (second value).Executes after outcome := by
  induction first generalizing events with
  | done value => exact ⟨value, [], events, rfl, .done value, executed⟩
  | raise error => exact error.elim
  | call op next induction =>
      rcases Program.executes_call_iff.mp executed with
        ⟨answer, rest, rfl, continued⟩
      rcases induction answer continued with
        ⟨value, before, after, rfl, ran, ran'⟩
      exact ⟨value, _, after, rfl, .call answer ran, ran'⟩

/-- Both programs make only calls of a kind. -/
theorem onlyCalls_splice {allowed : target.Op → Prop}
    {first : Program target Empty α} {second : α → Program target ε β}
    (earlier : first.OnlyCalls allowed)
    (later : ∀ value, (second value).OnlyCalls allowed) :
    (splice first second).OnlyCalls allowed := by
  induction first with
  | done value => exact later value
  | raise error => exact error.elim
  | call op next induction =>
      exact ⟨earlier.1, fun answer => induction answer (earlier.2 answer)⟩

/-- Carry out every call of a program by a program. -/
def substitute
    (carry : (op : source.Op) → Program target Empty (source.Answer op)) :
    Program source ε α → Program target ε α
  | .done value => .done value
  | .raise error => .raise error
  | .call op next =>
      splice (carry op) fun answer => substitute carry (next answer)

/-- A call that is being carried out, and what was answered to it so far. -/
structure Exchange (source target : Interface) where
  op : source.Op
  events : List (Program.Event target)

variable
  {carry : (op : source.Op) → Program target Empty (source.Answer op)}

/--
Where a substituted program stands: between two calls of the program, or
within one that is not finished.
-/
inductive Stands
    (carry : (op : source.Op) → Program target Empty (source.Answer op)) :
    Program target ε α → Program source ε α →
      Option (Exchange source target) → Prop where
  | between (program : Program source ε α) :
      Stands carry (substitute carry program) program none
  | within {op : source.Op} {events : List (Program.Event target)}
      {lower : target.Op}
      {left :
        target.Answer lower → Program target Empty (source.Answer op)}
      (leaves : Leaves (carry op) events (.call lower left))
      (next : source.Answer op → Program source ε α) :
      Stands carry
        (splice (.call lower left) fun answer =>
          substitute carry (next answer))
        (.call op next) (some ⟨op, events⟩)

/-- The exchange of a client, which may be about to start. -/
def Under (exchange : Option (Exchange source target)) (op : source.Op)
    (events : List (Program.Event target)) : Prop :=
  exchange = some ⟨op, events⟩ ∨ exchange = none ∧ events = []

/-- A program that makes a call stands in an exchange. -/
theorem Stands.of_call
    (opens : ∀ op, ∃ lower next, carry op = .call lower next)
    {lower : target.Op} {rest : target.Answer lower → Program target ε α}
    {program : Program source ε α}
    {exchange : Option (Exchange source target)}
    (stands : Stands carry (.call lower rest) program exchange) :
    ∃ op next events left,
      program = .call op next ∧ Under exchange op events ∧
        Leaves (carry op) events (.call lower left) ∧
          rest =
            fun answer =>
              splice (left answer) fun answer =>
                substitute carry (next answer) := by
  generalize here : Program.call lower rest = concrete at stands
  cases stands with
  | between program =>
      cases program with
      | done value => cases here
      | raise error => cases here
      | call op next =>
          rcases opens op with ⟨first, left, opened⟩
          rw [substitute, opened, splice] at here
          cases here
          refine ⟨op, next, [], left, rfl, .inr ⟨rfl, rfl⟩, ?_, rfl⟩
          rw [opened]
          exact .stop _
  | @within op events first left leaves next =>
      cases here
      exact ⟨op, next, events, left, rfl, .inl rfl, leaves, rfl⟩

/-- A program that has ended stands at the end of the program. -/
theorem Stands.ended
    (opens : ∀ op, ∃ lower next, carry op = .call lower next)
    {concrete : Program target ε α} {program : Program source ε α}
    {exchange : Option (Exchange source target)}
    (stands : Stands carry concrete program exchange)
    {outcome : Except ε α} (returned : concrete.ended = some outcome) :
    program.ended = some outcome ∧ exchange = none := by
  cases stands with
  | between program =>
      cases program with
      | done value => exact ⟨returned, rfl⟩
      | raise error => exact ⟨returned, rfl⟩
      | call op next =>
          rcases opens op with ⟨first, left, opened⟩
          rw [substitute, opened] at returned
          cases returned
  | within leaves next => cases returned

/-- Calls that were answered, each by an execution of its program. -/
inductive Carries
    (carry : (op : source.Op) → Program target Empty (source.Answer op)) :
    List (Program.Event source) → List (Program.Event target) → Prop where
  | nil : Carries carry [] []
  | concat {upper : List (Program.Event source)}
      {lower events : List (Program.Event target)} {op : source.Op}
      {value : source.Answer op} (earlier : Carries carry upper lower)
      (ran : (carry op).Executes events (.ok value)) :
      Carries carry (upper ++ [⟨op, value⟩]) (lower ++ events)

/-- The last call was answered by an execution of its program. -/
theorem Carries.exists_concat {upper : List (Program.Event source)}
    {lower : List (Program.Event target)} {event : Program.Event source}
    (carries : Carries carry (upper ++ [event]) lower) :
    ∃ before events,
      lower = before ++ events ∧ Carries carry upper before ∧
        (carry event.op).Executes events (.ok event.answer) := by
  generalize whole : upper ++ [event] = full at carries
  cases carries with
  | nil => simp at whole
  | concat earlier ran =>
      rcases List.append_inj' whole rfl with ⟨rfl, last⟩
      cases last
      exact ⟨_, _, rfl, earlier, ran⟩

/-- What was answered below divides as the calls do. -/
theorem Carries.exists_append {first second : List (Program.Event source)}
    {lower : List (Program.Event target)}
    (carries : Carries carry (first ++ second) lower) :
    ∃ before after,
      lower = before ++ after ∧ Carries carry first before ∧
        Carries carry second after := by
  induction second using List.reverseRecOn generalizing lower with
  | nil =>
      rw [List.append_nil] at carries
      exact ⟨lower, [], (List.append_nil lower).symm, carries, .nil⟩
  | append_singleton second event induction =>
      rw [← List.append_assoc] at carries
      rcases carries.exists_concat with ⟨between, events, rfl, earlier, ran⟩
      rcases induction earlier with ⟨before, after, rfl, one, two⟩
      exact
        ⟨before, after ++ events, by rw [List.append_assoc], one,
          .concat two ran⟩

/-- Each call was answered by an execution of its program. -/
theorem Carries.exists_executes {upper : List (Program.Event source)}
    {lower : List (Program.Event target)} (carries : Carries carry upper lower)
    {event : Program.Event source} (member : event ∈ upper) :
    ∃ events,
      (carry event.op).Executes events (.ok event.answer) ∧
        ∀ other ∈ events, other ∈ lower := by
  induction carries with
  | nil => cases member
  | concat earlier ran induction =>
      rcases List.mem_append.mp member with before | last
      · rcases induction before with ⟨events, ran', inside⟩
        exact
          ⟨events, ran', fun other here =>
            List.mem_append_left _ (inside other here)⟩
      · rw [List.mem_singleton.mp last]
        exact
          ⟨_, ran, fun other here => List.mem_append_right _ here⟩

/-- What was answered below was called by one of the programs. -/
theorem Carries.allowed {allowed : target.Op → Prop}
    {upper : List (Program.Event source)}
    {lower : List (Program.Event target)} (carries : Carries carry upper lower)
    (only : ∀ event ∈ upper, (carry event.op).OnlyCalls allowed) :
    ∀ event ∈ lower, allowed event.op := by
  induction carries with
  | nil => simp
  | concat earlier ran induction =>
      intro event member
      rcases List.mem_append.mp member with before | last
      · exact
          induction
            (fun other here => only other (List.mem_append_left _ here))
            event before
      · have own := only _ (List.mem_append_right _ List.mem_cons_self)
        exact Program.allowed_of_executes own ran event last

/-- The calls and answers of an exchange, if there is one. -/
def exchanged : Option (Exchange source target) → List (Program.Event target)
  | none => []
  | some exchange => exchange.events

theorem exchanged_of_under {exchange : Option (Exchange source target)}
    {op : source.Op} {events : List (Program.Event target)}
    (under : Under exchange op events) : exchanged exchange = events := by
  rcases under with rfl | ⟨rfl, rfl⟩
  · rfl
  · rfl

/-- What a substituted program was answered, call by call of the program. -/
theorem exists_carries
    (opens : ∀ op, ∃ lower next, carry op = .call lower next)
    {program : Program source ε α} {events : List (Program.Event target)}
    {left : Program target ε α}
    (leaves : Leaves (substitute carry program) events left) :
    ∃ upper lower rest exchange,
      Leaves program upper rest ∧ Carries carry upper lower ∧
        Stands carry left rest exchange ∧
          events = lower ++ exchanged exchange := by
  induction events using List.reverseRecOn generalizing left with
  | nil =>
      rw [Program.leaves_nil leaves]
      exact ⟨[], [], program, none, .stop _, .nil, .between program, rfl⟩
  | append_singleton events event induction =>
      rcases Program.leaves_concat leaves with ⟨rest', earlier, rfl⟩
      rcases induction earlier with
        ⟨upper, lower, rest, exchange, ran, carries, stands, rfl⟩
      rcases stands.of_call opens with
        ⟨op, next, partway, inner, rfl, under, inside, rfl⟩
      rw [exchanged_of_under under]
      have further := inside.concat event.answer
      cases after : inner event.answer with
      | done value =>
          rw [after] at further
          refine
            ⟨upper ++ [⟨op, value⟩], lower ++ (partway ++ [event]),
              next value, none, ran.concat value,
              carries.concat (further.executes rfl), ?_, by simp [exchanged]⟩
          simp only [after, splice]
          exact .between (next value)
      | raise error => exact error.elim
      | call lower' left' =>
          rw [after] at further
          refine
            ⟨upper, lower, .call op next, some ⟨op, partway ++ [event]⟩, ran,
              carries, ?_, by simp [exchanged]⟩
          simp only [after]
          exact .within further next

/-- A call below is made within a call of the program, after its others. -/
theorem exists_calling
    (opens : ∀ op, ∃ lower next, carry op = .call lower next)
    {program : Program source ε α} {events : List (Program.Event target)}
    {lower : target.Op} {rest : target.Answer lower → Program target ε α}
    (leaves : Leaves (substitute carry program) events (.call lower rest)) :
    ∃ past before partway op next left,
      Leaves program past (.call op next) ∧ Carries carry past before ∧
        events = before ++ partway ∧
          Leaves (carry op) partway (.call lower left) := by
  rcases exists_carries opens leaves with
    ⟨past, before, program', exchange, ran, carries, stands, rfl⟩
  rcases stands.of_call opens with
    ⟨op, next, partway, left, rfl, under, inside, _⟩
  rw [exchanged_of_under under]
  exact ⟨past, before, partway, op, next, left, ran, carries, rfl, inside⟩

/-! ## Simulation -/

variable {Client Request Choice Choice' Shared Shared' : Type}
variable [DecidableEq Client]

/-- The call that a client carries out is answered, or it is not. -/
inductive Completes (high : Host source Client Choice Shared)
    (client : Client) (exchange : Option (Exchange source target)) :
    Shared → Shared → Prop where
  | leave (shared : Shared) : Completes high client exchange shared shared
  | answer {shared shared' : Shared} {op : source.Op}
      {events : List (Program.Event target)}
      (carried : exchange = some ⟨op, events⟩)
      {choice : Choice} {value : source.Answer op}
      (responded :
        high.respond client choice op shared = some (value, shared')) :
      Completes high client exchange shared shared'

/--
A lower host carries out the calls of a higher one: a step within a call is
none of the higher host, and the last step of a call is its answer.  A client
that departs within a call may have been answered before.
-/
structure Simulates
    (carry : (op : source.Op) → Program target Empty (source.Answer op))
    (high : Host source Client Choice Shared)
    (low : Host target Client Choice' Shared')
    (relates :
      (Client → Option (Exchange source target)) → Shared' → Shared → Prop) :
    Prop where
  opens : ∀ op, ∃ lower next, carry op = .call lower next
  goesOn :
    ∀ {exchanges concrete abstract client op events lower left choice answer
        concrete'},
      relates exchanges concrete abstract →
        Under (exchanges client) op events →
          Leaves (carry op) events (.call lower left) →
            low.respond client choice lower concrete =
                some (answer, concrete') →
              (left answer).ended = none →
                relates
                  (Function.update exchanges client
                    (some ⟨op, events ++ [⟨lower, answer⟩]⟩))
                  concrete' abstract
  returns :
    ∀ {exchanges concrete abstract client op events lower choice answer
        concrete' value},
      relates exchanges concrete abstract →
        Under (exchanges client) op events →
          low.respond client choice lower concrete =
              some (answer, concrete') →
            (carry op).Executes (events ++ [⟨lower, answer⟩])
                (.ok value) →
              ∃ choice' abstract',
                high.respond client choice' op abstract =
                    some (value, abstract') ∧
                  relates (Function.update exchanges client none) concrete'
                    abstract'
  departs :
    ∀ {exchanges concrete abstract} client,
      relates exchanges concrete abstract →
        (∀ exchange, exchanges client = some exchange →
            ∃ left, Leaves (carry exchange.op) exchange.events left) →
          ∃ abstract',
            Completes high client (exchanges client) abstract abstract' ∧
              relates (Function.update exchanges client none)
                (low.depart client concrete) (high.depart client abstract')

/-- A session of the lower level and the one it carries out. -/
inductive Matches
    (carry : (op : source.Op) → Program target Empty (source.Answer op)) :
    Option (Session target Request ε α) →
      Option (Session source Request ε α) →
        Option (Exchange source target) → Prop where
  | absent : Matches carry none none none
  | present {request : Request} {concrete : Program target ε α}
      {program : Program source ε α}
      {exchange : Option (Exchange source target)} (calls calls' : Nat)
      (stands : Stands carry concrete program exchange) :
      Matches carry (some ⟨request, calls, concrete⟩)
        (some ⟨request, calls', program⟩) exchange

variable {high : Host source Client Choice Shared}
variable {low : Host target Client Choice' Shared'}
variable {serve : Request → Program source ε α}
variable
  {relates :
    (Client → Option (Exchange source target)) → Shared' → Shared → Prop}
variable {initial : Shared → Prop} {initial' : Shared' → Prop}

/-- What can be seen of a session: its request, and how it has ended. -/
def seen {interface : Interface} (session : Session interface Request ε α) :
    Request × Option (Except ε α) :=
  (session.request, session.program.ended)

/-- Sessions that match are seen alike. -/
theorem Matches.seen_eq
    (opens : ∀ op, ∃ lower next, carry op = .call lower next)
    {concrete : Option (Session target Request ε α)}
    {session : Option (Session source Request ε α)}
    {exchange : Option (Exchange source target)}
    (fit : Matches carry concrete session exchange) :
    concrete.map seen = session.map seen := by
  cases fit with
  | absent => rfl
  | @present request concrete program exchange calls calls' stands =>
      have same : concrete.ended = program.ended := by
        cases returned : concrete.ended with
        | some outcome => exact (stands.ended opens returned).1.symm
        | none =>
            cases stands with
            | between program =>
                cases program with
                | done value => cases returned
                | raise error => cases returned
                | call op next => rfl
            | within leaves next => rfl
      simp [seen, same]

/-- One session is replaced, with what it carries out. -/
theorem matches_update
    {sessions : Client → Option (Session target Request ε α)}
    {sessions' : Client → Option (Session source Request ε α)}
    {exchanges : Client → Option (Exchange source target)}
    (fits :
      ∀ other,
        Matches carry (sessions other) (sessions' other) (exchanges other))
    {client : Client} {concrete : Option (Session target Request ε α)}
    {session : Option (Session source Request ε α)}
    {exchange : Option (Exchange source target)}
    (fit : Matches carry concrete session exchange) (other : Client) :
    Matches carry (Function.update sessions client concrete other)
      (Function.update sessions' client session other)
      (Function.update exchanges client exchange other) := by
  by_cases same : other = client
  · subst same
    simpa using fit
  · simpa [same] using fits other

/-- What the lower level carries out in a world is such a world. -/
def Carried
    (carry : (op : source.Op) → Program target Empty (source.Answer op))
    (high : Host source Client Choice Shared)
    (serve : Request → Program source ε α) (initial : Shared → Prop)
    (relates :
      (Client → Option (Exchange source target)) → Shared' → Shared → Prop)
    (world : World target Client Request Shared' ε α) : Prop :=
  ∃ (exchanges : Client → Option (Exchange source target))
    (abstract : World source Client Request Shared ε α),
    Reachable (system high serve initial) unrestricted abstract ∧
      relates exchanges world.shared abstract.shared ∧
        ∀ client,
          Matches carry (world.sessions client) (abstract.sessions client)
            (exchanges client)

section Steps

variable {world : World target Client Request Shared' ε α}

theorem Carried.arrive
    (carried : Carried carry high serve initial relates world)
    {client : Client} (request : Request)
    (absent : world.sessions client = none) :
    Carried carry high serve initial relates
      { world with
        sessions :=
          Function.update world.sessions client
            (some ⟨request, 0, substitute carry (serve request)⟩) } := by
  rcases carried with ⟨exchanges, abstract, above, related, fits⟩
  have fit := fits client
  rw [absent] at fit
  generalize session : abstract.sessions client = found at fit
  generalize exchange : exchanges client = status at fit
  cases fit
  refine
    ⟨Function.update exchanges client none,
      { abstract with
        sessions :=
          Function.update abstract.sessions client
            (some ⟨request, 0, serve request⟩) },
      ?_, ?_, ?_⟩
  · have moved :
        (system high serve initial).step abstract (.arrive client request) =
          some
            { abstract with
              sessions :=
                Function.update abstract.sessions client
                  (some ⟨request, 0, serve request⟩) } := by
      simp [system, World.step, session]
    exact .next above trivial moved
  · rw [← exchange, Function.update_eq_self]
    exact related
  · exact matches_update fits (.present 0 0 (.between (serve request)))

theorem Carried.depart
    (simulates : Simulates carry high low relates)
    (carried : Carried carry high serve initial relates world)
    {client : Client} {session : Session target Request ε α}
    (present : world.sessions client = some session) :
    Carried carry high serve initial relates
      { shared := low.depart client world.shared
        sessions := Function.update world.sessions client none } := by
  rcases carried with ⟨exchanges, abstract, above, related, fits⟩
  have fit := fits client
  rw [present] at fit
  generalize found : abstract.sessions client = session' at fit
  generalize status : exchanges client = exchange at fit
  cases fit with
  | @present request concrete program exchange calls calls' stands =>
      have leaves :
          ∀ exchange, exchanges client = some exchange →
            ∃ left, Leaves (carry exchange.op) exchange.events left := by
        rintro opened same
        rw [status] at same
        subst same
        cases stands with
        | within leaves next => exact ⟨_, leaves⟩
      rcases simulates.departs client related leaves with
        ⟨shared', completes, related'⟩
      have reached :
          ∃ session,
            Reachable (system high serve initial) unrestricted
              ⟨shared',
                Function.update abstract.sessions client (some session)⟩ := by
        cases completes with
        | leave =>
            refine ⟨⟨request, calls', program⟩, ?_⟩
            rw [← found, Function.update_eq_self]
            exact above
        | @answer _ op events carried choice value responded =>
            rw [status] at carried
            subst carried
            cases stands with
            | within leaves next =>
                have moved :
                    (system high serve initial).step abstract
                        (.answer client choice) =
                      _ :=
                  World.step_call serve found responded
                exact ⟨_, .next above trivial moved⟩
      rcases reached with ⟨session, reached⟩
      refine
        ⟨Function.update exchanges client none,
          { shared := high.depart client shared'
            sessions := Function.update abstract.sessions client none },
          ?_, related', matches_update fits .absent⟩
      have moved :
          (system high serve initial).step
              ⟨shared',
                Function.update abstract.sessions client (some session)⟩
              (.depart client) =
            some
              { shared := high.depart client shared'
                sessions :=
                  Function.update abstract.sessions client none } := by
        simp [system, World.step]
      exact .next reached trivial moved

/-- A step within a call is none, and the last step of a call answers it. -/
theorem Carried.answer
    (simulates : Simulates carry high low relates)
    (carried : Carried carry high serve initial relates world)
    {client : Client} {request : Request} {calls : Nat} {lower : target.Op}
    {rest : target.Answer lower → Program target ε α} {choice : Choice'}
    {answer : target.Answer lower} {shared : Shared'}
    (present :
      world.sessions client = some ⟨request, calls, .call lower rest⟩)
    (responded :
      low.respond client choice lower world.shared =
        some (answer, shared)) :
    Carried carry high serve initial relates
      { shared := shared
        sessions :=
          Function.update world.sessions client
            (some ⟨request, calls + 1, rest answer⟩) } := by
  rcases carried with ⟨exchanges, abstract, above, related, fits⟩
  have fit := fits client
  rw [present] at fit
  generalize found : abstract.sessions client = session at fit
  generalize exchange : exchanges client = status at fit
  cases fit with
  | present calls calls' stands =>
      rcases stands.of_call simulates.opens with
        ⟨op, next, events, left, rfl, under, leaves, rfl⟩
      rw [← exchange] at under
      have further := leaves.concat answer
      cases after : left answer with
      | done value =>
          rw [after] at further
          rcases simulates.returns related under responded
              (further.executes rfl) with
            ⟨choice', abstract', answered, related'⟩
          have moved :
              (system high serve initial).step abstract
                  (.answer client choice') =
                _ :=
            World.step_call serve found answered
          refine
            ⟨Function.update exchanges client none,
              { shared := abstract'
                sessions :=
                  Function.update abstract.sessions client
                    (some ⟨request, calls' + 1, next value⟩) },
              .next above trivial moved, related', matches_update fits ?_⟩
          simp only [after, splice]
          exact .present _ _ (.between (next value))
      | raise error => exact error.elim
      | call lower' left' =>
          refine
            ⟨Function.update exchanges client
                (some ⟨op, events ++ [⟨lower, answer⟩]⟩),
              abstract, above,
              simulates.goesOn related under leaves responded ?_,
              fun other => ?_⟩
          · rw [after]
            rfl
          rw [after] at further
          have same :
              Function.update abstract.sessions client
                  (some ⟨request, calls', .call op next⟩) =
                abstract.sessions := by
            rw [← found, Function.update_eq_self]
          rw [← same]
          refine matches_update fits ?_ other
          simp only [after]
          exact .present _ _ (.within further next)

end Steps

/-- Every run of the lower level carries out a run of the higher level. -/
theorem exists_simulated
    (simulates : Simulates carry high low relates)
    (starts :
      ∀ concrete, initial' concrete →
        ∃ abstract, initial abstract ∧
          relates (fun _ => none) concrete abstract)
    {world : World target Client Request Shared' ε α}
    (reached :
      Reachable
        (system low (fun request => substitute carry (serve request))
          initial')
        unrestricted world) :
    Carried carry high serve initial relates world := by
  induction reached with
  | @start world isInitial =>
      rcases starts world.shared isInitial.1 with ⟨shared, start, related⟩
      refine ⟨fun _ => none, ⟨shared, fun _ => none⟩,
        .start ⟨start, fun _ => rfl⟩, related, fun client => ?_⟩
      rw [isInitial.2 client]
      exact .absent
  | next reached _ moved induction =>
      rcases World.step_cases moved with arrival | answered | departure
      · rcases arrival with ⟨client, request, rfl, absent, rfl⟩
        exact induction.arrive request absent
      · rcases answered with
          ⟨client, choice, request, calls, lower, rest, answer, shared, rfl,
            present, responded, rfl⟩
        exact induction.answer simulates present responded
      · rcases departure with ⟨client, session, rfl, present, rfl⟩
        exact induction.depart simulates present

end Trackward.Lib.Substitution
