import Trackward.Lib.Programs

/-!
# Concurrent sessions and rely-guarantee contracts

A `Host` owns a shared state and answers the calls of any number of
concurrent clients.  Each client is served by one program; the environment
decides which client moves next, how the host answers when it has a choice,
and when a client departs, with its program finished or not.

A `Contract` is a rely-guarantee specification over the shared state.  It
names an invariant, what a client that made `calls` calls for `request` may
rely on while others move, and what each step of a client guarantees to the
others.  `Contract.wp` is the weakest precondition of a program under the
contract, with the usual rule for sequencing, and `Contract.sound` is the
single induction over runs: if every request is verified in isolation, the
invariant holds in every reachable state of every interleaving.

Runs may be restricted by a `Discipline` on the transitions of the shared
state.
-/

namespace Trackward.Lib.Sessions

open Trackward.Lib.Programs
open Trackward.Lib.Runs

variable {Client Request Choice Shared : Type}
variable {interface : Interface} {ε α β : Type}

/-- The owner of the shared state. -/
structure Host (interface : Interface) (Client Choice Shared : Type) where
  respond :
    Client → Choice → (op : interface.Op) → Shared →
      Option (interface.Answer op × Shared)
  depart : Client → Shared → Shared

/-- A client being served: its request and what remains to be run for it. -/
structure Session (interface : Interface) (Request ε α : Type) where
  request : Request
  calls : Nat
  program : Program interface ε α

/-- The shared state together with all the sessions in flight. -/
structure World (interface : Interface)
    (Client Request Shared ε α : Type) where
  shared : Shared
  sessions : Client → Option (Session interface Request ε α)

/-- What the environment may do next. -/
inductive Move (Client Request Choice : Type) where
  | arrive (client : Client) (request : Request)
  | answer (client : Client) (choice : Choice)
  | depart (client : Client)

/-- The answer of the host to the pending call of a session. -/
def Session.advance
    (host : Host interface Client Choice Shared)
    (session : Session interface Request ε α)
    (client : Client) (choice : Choice) (shared : Shared) :
    Option (Session interface Request ε α × Shared) :=
  match session.program with
  | .done _ => none
  | .raise _ => none
  | .call op next =>
      match host.respond client choice op shared with
      | none => none
      | some (answer, shared') =>
          some (⟨session.request, session.calls + 1, next answer⟩, shared')

/-- The session still has a call to make. -/
def Session.running (session : Session interface Request ε α) : Prop :=
  ∃ op next, session.program = .call op next

/-- Everything an answered call can be. -/
theorem Session.advance_cases
    {host : Host interface Client Choice Shared}
    {session session' : Session interface Request ε α}
    {client : Client} {choice : Choice} {shared shared' : Shared}
    (advanced :
      session.advance host client choice shared = some (session', shared')) :
    ∃ op next answer,
      session.program = .call op next ∧
        host.respond client choice op shared = some (answer, shared') ∧
          session' = ⟨session.request, session.calls + 1, next answer⟩ := by
  rw [Session.advance] at advanced
  cases program : session.program with
  | done value => simp [program] at advanced
  | raise error => simp [program] at advanced
  | call op next =>
      rw [program] at advanced
      simp only at advanced
      cases responded : host.respond client choice op shared with
      | none => simp [responded] at advanced
      | some result =>
          rcases result with ⟨answer, after⟩
          simp only [responded, Option.some.injEq, Prod.mk.injEq] at advanced
          rcases advanced with ⟨rfl, rfl⟩
          exact ⟨op, next, answer, rfl, responded, rfl⟩

theorem Session.advance_call
    {host : Host interface Client Choice Shared} {client : Client}
    {choice : Choice} {op : interface.Op} {answer : interface.Answer op}
    {shared shared' : Shared}
    (responded :
      host.respond client choice op shared = some (answer, shared'))
    (request : Request) (calls : Nat)
    (next : interface.Answer op → Program interface ε α) :
    Session.advance host ⟨request, calls, .call op next⟩ client choice
        shared =
      some (⟨request, calls + 1, next answer⟩, shared') := by
  simp only [Session.advance, responded]

/-! ## Disciplined runs -/

/--
A restriction on how the shared state may change: by itself, and beside each
other client that is still running at that moment.
-/
structure Discipline (Request Shared : Type) where
  alone : Shared → Shared → Prop
  beside : Request → Nat → Shared → Shared → Prop

/-- The moves a discipline permits: only answered calls are restricted. -/
def Discipline.permits
    (discipline : Discipline Request Shared)
    (host : Host interface Client Choice Shared)
    (world : World interface Client Request Shared ε α) :
    Move Client Request Choice → Prop
  | .answer client choice =>
      ∀ session session' shared',
        world.sessions client = some session →
          session.advance host client choice world.shared =
              some (session', shared') →
            discipline.alone world.shared shared' ∧
              ∀ other otherSession,
                other ≠ client →
                  world.sessions other = some otherSession →
                    otherSession.running →
                      discipline.beside otherSession.request
                        otherSession.calls world.shared shared'
  | _ => True

/-! ## Contracts -/

/-- A rely-guarantee specification of the clients of a host. -/
structure Contract (Client Request Shared : Type) where
  invariant : Shared → Prop
  idle : Client → Shared → Prop
  rely : Client → Request → Nat → Shared → Shared → Prop
  guarantee : Client → Request → Shared → Shared → Prop
  rely_refl :
    ∀ client request calls shared, rely client request calls shared shared
  rely_trans :
    ∀ client request calls first second third,
      rely client request calls first second →
        rely client request calls second third →
          rely client request calls first third

namespace Contract

/--
Weakest precondition of a program under a contract.  Before each call the
shared state may have moved within the rely; the call itself must keep the
guarantee.
-/
def wp
    (contract : Contract Client Request Shared)
    (host : Host interface Client Choice Shared)
    (client : Client) (request : Request) :
    Program interface ε α → (α → Nat → Shared → Prop) →
      Nat → Shared → Prop
  | .done value, post, calls, shared => post value calls shared
  | .raise _, _, _, _ => True
  | .call op next, post, calls, shared =>
      ∀ before,
        contract.rely client request calls shared before →
          contract.invariant before →
            ∀ choice answer after,
              host.respond client choice op before = some (answer, after) →
                contract.guarantee client request before after ∧
                  wp contract host client request (next answer) post
                    (calls + 1) after

variable {contract : Contract Client Request Shared}
variable {host : Host interface Client Choice Shared}
variable {client : Client} {request : Request}

@[simp]
theorem wp_done (value : α) (post : α → Nat → Shared → Prop)
    (calls : Nat) (shared : Shared) :
    contract.wp host client request
        (.done value : Program interface ε α) post calls shared ↔
      post value calls shared :=
  Iff.rfl

@[simp]
theorem wp_raise (error : ε) (post : α → Nat → Shared → Prop)
    (calls : Nat) (shared : Shared) :
    contract.wp host client request
        (.raise error : Program interface ε α) post calls shared :=
  trivial

/-- The rule of consequence. -/
theorem wp_weaken
    {program : Program interface ε α}
    {strong weak : α → Nat → Shared → Prop}
    (weaker :
      ∀ value calls shared, strong value calls shared →
        weak value calls shared)
    {calls : Nat} {shared : Shared}
    (verified :
      contract.wp host client request program strong calls shared) :
    contract.wp host client request program weak calls shared := by
  induction program generalizing calls shared with
  | done value => exact weaker _ _ _ verified
  | raise error => trivial
  | call op next induction =>
      intro before relied sound choice answer after responded
      rcases verified before relied sound choice answer after responded with
        ⟨guaranteed, rest⟩
      exact ⟨guaranteed, induction answer rest⟩

/-- The rule of sequencing. -/
theorem wp_bind
    {first : Program interface ε α}
    {second : α → Program interface ε β}
    {post : β → Nat → Shared → Prop}
    {calls : Nat} {shared : Shared} :
    contract.wp host client request (first >>= second) post calls shared ↔
      contract.wp host client request first
        (fun value => contract.wp host client request (second value) post)
        calls shared := by
  induction first generalizing calls shared with
  | done value => exact Iff.rfl
  | raise error => exact Iff.rfl
  | call op next induction =>
      simp only [Program.call_bind, wp, induction]

/-- A waiting program stays verified while others move within its rely. -/
theorem wp_stable
    {op : interface.Op}
    {next : interface.Answer op → Program interface ε α}
    {post : α → Nat → Shared → Prop}
    {calls : Nat} {shared later : Shared}
    (verified :
      contract.wp host client request (.call op next) post calls shared)
    (relied : contract.rely client request calls shared later) :
    contract.wp host client request (.call op next) post calls later := by
  intro before further
  exact verified before
    (contract.rely_trans _ _ _ _ _ _ relied further)

end Contract

/--
The proof obligations of a contract: a client that keeps its guarantee under
the discipline keeps the invariant and the rely of every other client, and a
client that departs is idle and disturbs nobody.
-/
structure Contract.Compatible
    (contract : Contract Client Request Shared)
    (host : Host interface Client Choice Shared)
    (discipline : Discipline Request Shared) : Prop where
  keeps_invariant :
    ∀ client request before after,
      contract.invariant before →
        contract.guarantee client request before after →
          discipline.alone before after →
            contract.invariant after
  keeps_idle :
    ∀ client request before after,
      contract.guarantee client request before after →
        ∀ other, other ≠ client →
          contract.idle other before → contract.idle other after
  keeps_rely :
    ∀ client request before after,
      contract.invariant before →
        contract.guarantee client request before after →
          ∀ other otherRequest calls,
            other ≠ client →
              discipline.beside otherRequest calls before after →
                contract.rely other otherRequest calls before after
  depart_invariant :
    ∀ client shared,
      contract.invariant shared →
        contract.invariant (host.depart client shared)
  depart_idle :
    ∀ client shared,
      contract.idle client (host.depart client shared)
  depart_keeps_idle :
    ∀ client other shared,
      contract.idle other shared →
        contract.idle other (host.depart client shared)
  depart_rely :
    ∀ client other request calls shared,
      other ≠ client →
        contract.rely other request calls shared
          (host.depart client shared)

/-- A running session stays verified across what its rely allows. -/
theorem Contract.verified_stable
    {contract : Contract Client Request Shared}
    {host : Host interface Client Choice Shared}
    {client : Client}
    {session : Session interface Request ε α}
    {shared later : Shared}
    (verified :
      contract.wp host client session.request session.program
        (fun _ _ _ => True) session.calls shared)
    (relied :
      session.running →
        contract.rely client session.request session.calls shared later) :
    contract.wp host client session.request session.program
      (fun _ _ _ => True) session.calls later := by
  cases program : session.program with
  | done value => trivial
  | raise error => trivial
  | call op next =>
      rw [program] at verified
      exact Contract.wp_stable verified (relied ⟨op, next, program⟩)

/-! ## Interleaved runs -/

variable [DecidableEq Client]

/-- One move of the world. -/
def World.step
    (host : Host interface Client Choice Shared)
    (serve : Request → Program interface ε α)
    (world : World interface Client Request Shared ε α) :
    Move Client Request Choice →
      Option (World interface Client Request Shared ε α)
  | .arrive client request =>
      match world.sessions client with
      | some _ => none
      | none =>
          some
            { world with
              sessions :=
                Function.update world.sessions client
                  (some ⟨request, 0, serve request⟩) }
  | .answer client choice =>
      match world.sessions client with
      | none => none
      | some session =>
          match session.advance host client choice world.shared with
          | none => none
          | some (session', shared') =>
              some
                { shared := shared'
                  sessions :=
                    Function.update world.sessions client (some session') }
  | .depart client =>
      match world.sessions client with
      | none => none
      | some _ =>
          some
            { shared := host.depart client world.shared
              sessions := Function.update world.sessions client none }

/-- Everything one move of the world can do. -/
theorem World.step_cases
    {host : Host interface Client Choice Shared}
    {serve : Request → Program interface ε α}
    {world target : World interface Client Request Shared ε α}
    {move : Move Client Request Choice}
    (moved : world.step host serve move = some target) :
    (∃ client request,
      move = .arrive client request ∧
        world.sessions client = none ∧
          target =
            { world with
              sessions :=
                Function.update world.sessions client
                  (some ⟨request, 0, serve request⟩) }) ∨
    (∃ client choice request calls op next answer shared',
      move = .answer client choice ∧
        world.sessions client = some ⟨request, calls, .call op next⟩ ∧
          host.respond client choice op world.shared =
              some (answer, shared') ∧
            target =
              { shared := shared'
                sessions :=
                  Function.update world.sessions client
                    (some ⟨request, calls + 1, next answer⟩) }) ∨
    (∃ client session,
      move = .depart client ∧
        world.sessions client = some session ∧
          target =
            { shared := host.depart client world.shared
              sessions := Function.update world.sessions client none }) := by
  cases move with
  | arrive client request =>
      cases present : world.sessions client with
      | some session => simp [World.step, present] at moved
      | none =>
          simp only [World.step, present, Option.some.injEq] at moved
          exact Or.inl ⟨client, request, rfl, present, moved.symm⟩
  | answer client choice =>
      cases present : world.sessions client with
      | none => simp [World.step, present] at moved
      | some session =>
          simp only [World.step, present] at moved
          cases advanced :
              session.advance host client choice world.shared with
          | none => simp [advanced] at moved
          | some result =>
              rcases result with ⟨session', shared'⟩
              simp only [advanced, Option.some.injEq] at moved
              rcases Session.advance_cases advanced with
                ⟨op, next, answer, program, responded, rfl⟩
              rcases session with ⟨request, calls, waiting⟩
              subst program
              exact Or.inr (Or.inl
                ⟨client, choice, request, calls, op, next, answer, shared',
                  rfl, present, responded, moved.symm⟩)
  | depart client =>
      cases present : world.sessions client with
      | none => simp [World.step, present] at moved
      | some session =>
          simp only [World.step, present, Option.some.injEq] at moved
          exact Or.inr (Or.inr
            ⟨client, session, rfl, present, moved.symm⟩)

/-- A call that its host answers is a move. -/
theorem World.step_call
    {host : Host interface Client Choice Shared}
    (serve : Request → Program interface ε α)
    {world : World interface Client Request Shared ε α} {client : Client}
    {choice : Choice} {request : Request} {calls : Nat} {op : interface.Op}
    {next : interface.Answer op → Program interface ε α}
    {answer : interface.Answer op} {shared' : Shared}
    (present :
      world.sessions client = some ⟨request, calls, .call op next⟩)
    (responded :
      host.respond client choice op world.shared = some (answer, shared')) :
    world.step host serve (.answer client choice) =
      some
        { shared := shared'
          sessions :=
            Function.update world.sessions client
              (some ⟨request, calls + 1, next answer⟩) } := by
  simp only [World.step, present,
    Session.advance_call responded request calls next]

/--
What a move makes of a session whose client does not depart: it is left as it
was, or its call is answered.
-/
theorem World.step_session
    {host : Host interface Client Choice Shared}
    {serve : Request → Program interface ε α}
    {world target : World interface Client Request Shared ε α}
    {move : Move Client Request Choice}
    (moved : world.step host serve move = some target) {client : Client}
    {session : Session interface Request ε α}
    (present : world.sessions client = some session)
    (stays : move ≠ .depart client) :
    (target.sessions client = some session ∧
      ∀ choice, move ≠ .answer client choice) ∨
    (∃ choice op next answer,
      move = .answer client choice ∧
        session.program = .call op next ∧
          host.respond client choice op world.shared =
              some (answer, target.shared) ∧
            target.sessions client =
              some ⟨session.request, session.calls + 1, next answer⟩) := by
  rcases World.step_cases moved with arrival | answered | departure
  · rcases arrival with ⟨newcomer, request, rfl, absent, rfl⟩
    have different : client ≠ newcomer := by
      rintro rfl
      rw [absent] at present
      cases present
    exact Or.inl ⟨(Function.update_of_ne different _ _).trans present, by simp⟩
  · rcases answered with
      ⟨caller, choice, request, calls, op, next, answer, shared', rfl, here,
        responded, rfl⟩
    by_cases same : client = caller
    · subst same
      rw [here, Option.some.injEq] at present
      subst present
      exact Or.inr
        ⟨choice, op, next, answer, rfl, rfl, responded,
          Function.update_self client _ _⟩
    · refine Or.inl ⟨(Function.update_of_ne same _ _).trans present, ?_⟩
      rintro other ⟨⟩
      exact same rfl
  · rcases departure with ⟨leaver, leaving, rfl, _, rfl⟩
    have different : client ≠ leaver := by
      rintro rfl
      exact stays rfl
    exact Or.inl ⟨(Function.update_of_ne different _ _).trans present, by simp⟩

/-- All runs of a host that start from one of the `initial` shared states. -/
def system
    (host : Host interface Client Choice Shared)
    (serve : Request → Program interface ε α)
    (initial : Shared → Prop) :
    System (World interface Client Request Shared ε α)
      (Move Client Request Choice) where
  initial := fun world =>
    initial world.shared ∧ ∀ client, world.sessions client = none
  step := World.step host serve

/-- A client without a session is idle, one with a session is verified. -/
def Contract.Safe
    (contract : Contract Client Request Shared)
    (host : Host interface Client Choice Shared)
    (shared : Shared) (client : Client) :
    Option (Session interface Request ε α) → Prop
  | none => contract.idle client shared
  | some session =>
      contract.wp host client session.request session.program
        (fun _ _ _ => True) session.calls shared

/-- The invariant of runs: the shared invariant, and every client is safe. -/
structure Contract.Holds
    (contract : Contract Client Request Shared)
    (host : Host interface Client Choice Shared)
    (world : World interface Client Request Shared ε α) : Prop where
  invariant : contract.invariant world.shared
  safe :
    ∀ client, contract.Safe host world.shared client (world.sessions client)

/-- One disciplined move keeps the invariant of runs. -/
theorem Contract.Holds.step
    {contract : Contract Client Request Shared}
    {host : Host interface Client Choice Shared}
    {discipline : Discipline Request Shared}
    (compatible : contract.Compatible host discipline)
    {serve : Request → Program interface ε α}
    (verified :
      ∀ client request shared,
        contract.invariant shared → contract.idle client shared →
          contract.wp host client request (serve request)
            (fun _ _ _ => True) 0 shared)
    {world target : World interface Client Request Shared ε α}
    {move : Move Client Request Choice}
    (holds : contract.Holds host world)
    (permitted : discipline.permits host world move)
    (moved : world.step host serve move = some target) :
    contract.Holds host target := by
  rcases World.step_cases moved with arrival | answered | departure
  · rcases arrival with ⟨client, request, rfl, absent, rfl⟩
    have idle := holds.safe client
    rw [absent] at idle
    refine ⟨holds.invariant, ?_⟩
    rw [Function.forall_update_iff _ (contract.Safe host world.shared)]
    exact ⟨verified client request _ holds.invariant idle,
      fun other _ => holds.safe other⟩
  · rcases answered with
      ⟨client, choice, request, calls, op, next, answer, shared', rfl,
        present, responded, rfl⟩
    rcases
        permitted _ _ shared' present
          (Session.advance_call responded request calls next) with
      ⟨alone, beside⟩
    have running := holds.safe client
    rw [present, Contract.Safe] at running
    rcases running world.shared (contract.rely_refl _ _ _ _)
        holds.invariant choice answer shared' responded with
      ⟨guaranteed, rest⟩
    refine
      ⟨compatible.keeps_invariant client request _ _ holds.invariant
        guaranteed alone, ?_⟩
    rw [Function.forall_update_iff _ (contract.Safe host shared')]
    refine ⟨rest, fun other different => ?_⟩
    have before := holds.safe other
    cases otherPresent : world.sessions other with
    | none =>
        rw [otherPresent] at before
        exact compatible.keeps_idle client request _ _ guaranteed other
          different before
    | some otherSession =>
        rw [otherPresent] at before
        exact Contract.verified_stable before fun running =>
          compatible.keeps_rely client request _ _ holds.invariant
            guaranteed other otherSession.request otherSession.calls
            different
            (beside other otherSession different otherPresent running)
  · rcases departure with ⟨client, session, rfl, _, rfl⟩
    refine ⟨compatible.depart_invariant client _ holds.invariant, ?_⟩
    rw [Function.forall_update_iff _
      (contract.Safe host (host.depart client world.shared))]
    refine ⟨compatible.depart_idle client world.shared,
      fun other different => ?_⟩
    have before := holds.safe other
    cases otherPresent : world.sessions other with
    | none =>
        rw [otherPresent] at before
        exact compatible.depart_keeps_idle client other _ before
    | some otherSession =>
        rw [otherPresent] at before
        exact Contract.verified_stable before fun _ =>
          compatible.depart_rely client other _ _ _ different

/--
Soundness: if every request is verified in isolation, the invariant holds in
every state that a disciplined run of any number of sessions reaches.
-/
theorem Contract.sound
    {contract : Contract Client Request Shared}
    {host : Host interface Client Choice Shared}
    {discipline : Discipline Request Shared}
    (compatible : contract.Compatible host discipline)
    {serve : Request → Program interface ε α}
    (verified :
      ∀ client request shared,
        contract.invariant shared → contract.idle client shared →
          contract.wp host client request (serve request)
            (fun _ _ _ => True) 0 shared)
    {initial : Shared → Prop}
    (starts :
      ∀ shared, initial shared →
        contract.invariant shared ∧ ∀ client, contract.idle client shared)
    {world : World interface Client Request Shared ε α}
    (reached :
      Reachable (system host serve initial)
        (discipline.permits host) world) :
    contract.invariant world.shared := by
  have holds : contract.Holds host world := by
    refine reached.invariant (contract.Holds host) ?_ ?_
    · rintro start ⟨isInitial, empty⟩
      refine ⟨(starts _ isInitial).1, fun client => ?_⟩
      rw [empty client]
      exact (starts _ isInitial).2 client
    · intro state move target holdsBefore permitted moved
      exact holdsBefore.step compatible verified permitted moved
  exact holds.invariant

/-- A client has no session, or one that will only make allowed calls. -/
def Session.Confined (allowed : interface.Op → Prop) :
    Option (Session interface Request ε α) → Prop
  | none => True
  | some session => session.program.OnlyCalls allowed

/-- A session of allowed calls stays one. -/
theorem confined_of_reachable
    {host : Host interface Client Choice Shared}
    {allowed : interface.Op → Prop}
    {serve : Request → Program interface ε α}
    (serves : ∀ request, (serve request).OnlyCalls allowed)
    {initial : Shared → Prop}
    {permitted :
      World interface Client Request Shared ε α →
        Move Client Request Choice → Prop}
    {world : World interface Client Request Shared ε α}
    (reached : Reachable (system host serve initial) permitted world) :
    ∀ client, Session.Confined allowed (world.sessions client) := by
  induction reached with
  | start isInitial =>
      intro client
      rw [isInitial.2 client]
      trivial
  | next _ _ moved holds =>
      rcases World.step_cases moved with arrival | answered | departure
      · rcases arrival with ⟨client, request, rfl, _, rfl⟩
        rw [Function.forall_update_iff _ fun _ => Session.Confined allowed]
        exact ⟨serves request, fun other _ => holds other⟩
      · rcases answered with
          ⟨client, choice, request, calls, op, next, answer, _, rfl, here, _,
            rfl⟩
        have only := holds client
        rw [here, Session.Confined] at only
        rw [Function.forall_update_iff _ fun _ => Session.Confined allowed]
        exact ⟨only.2 answer, fun other _ => holds other⟩
      · rcases departure with ⟨client, session, rfl, _, rfl⟩
        rw [Function.forall_update_iff _ fun _ => Session.Confined allowed]
        exact ⟨trivial, fun other _ => holds other⟩

/--
If no request makes other calls than the allowed ones, what these and
departures preserve holds in every reachable state.
-/
theorem invariant_of_onlyCalls
    {host : Host interface Client Choice Shared}
    (allowed : interface.Op → Prop) (invariant : Shared → Prop)
    (answered :
      ∀ client choice op shared answer after,
        allowed op → invariant shared →
          host.respond client choice op shared = some (answer, after) →
            invariant after)
    (departed :
      ∀ client shared, invariant shared →
        invariant (host.depart client shared))
    {serve : Request → Program interface ε α}
    (serves : ∀ request, (serve request).OnlyCalls allowed)
    {initial : Shared → Prop}
    (starts : ∀ shared, initial shared → invariant shared)
    {permitted :
      World interface Client Request Shared ε α →
        Move Client Request Choice → Prop}
    {world : World interface Client Request Shared ε α}
    (reached : Reachable (system host serve initial) permitted world) :
    invariant world.shared := by
  induction reached with
  | start isInitial => exact starts _ isInitial.1
  | next earlier _ moved induction =>
      rcases World.step_cases moved with arrival | answer | departure
      · rcases arrival with ⟨client, request, rfl, _, rfl⟩
        exact induction
      · rcases answer with
          ⟨client, choice, request, calls, op, next, reply, shared', rfl,
            here, responded, rfl⟩
        have only := confined_of_reachable serves earlier client
        rw [here, Session.Confined] at only
        exact answered client choice op _ reply _ only.1 induction responded
      · rcases departure with ⟨client, session, rfl, _, rfl⟩
        exact departed client _ induction

/-! ## A client served alone -/

omit [DecidableEq Client] in
/--
What is left of a program, and the shared state, after the host has answered
some of its calls and nobody else has moved.
-/
inductive Alone (host : Host interface Client Choice Shared)
    (client : Client) :
    Program interface ε α → Shared → Program interface ε α → Shared →
      Prop where
  | stop (program : Program interface ε α) (shared : Shared) :
      Alone host client program shared program shared
  | answer {op : interface.Op}
      {next : interface.Answer op → Program interface ε α}
      (choice : Choice) {answer : interface.Answer op}
      {shared middle last : Shared} {left : Program interface ε α}
      (responded :
        host.respond client choice op shared = some (answer, middle))
      (rest : Alone host client (next answer) middle left last) :
      Alone host client (.call op next) shared left last

omit [DecidableEq Client] in
/-- A program served to its end, then the one its value selects. -/
theorem Alone.bind
    {host : Host interface Client Choice Shared} {client : Client}
    {first done : Program interface ε α} {value : α}
    {second : α → Program interface ε β} {left : Program interface ε β}
    {shared middle last : Shared}
    (earlier : Alone host client first shared done middle)
    (ended : done = .done value)
    (later : Alone host client (second value) middle left last) :
    Alone host client (first >>= second) shared left last := by
  induction earlier with
  | stop program shared =>
      rw [ended]
      exact later
  | answer choice responded _ induction =>
      exact .answer choice responded (induction ended later)

theorem Alone.reachable
    {host : Host interface Client Choice Shared}
    {serve : Request → Program interface ε α}
    {initial : Shared → Prop} {client : Client} {request : Request}
    {program left : Program interface ε α} {shared last : Shared}
    (alone : Alone host client program shared left last)
    {world : World interface Client Request Shared ε α} {calls : Nat}
    (reached : Reachable (system host serve initial) unrestricted world)
    (here : world.shared = shared)
    (present : world.sessions client = some ⟨request, calls, program⟩) :
    ∃ target, Reachable (system host serve initial) unrestricted target ∧
      target.shared = last := by
  induction alone generalizing world calls with
  | stop program shared => exact ⟨world, reached, here⟩
  | @answer op next choice answer shared middle last left responded _
      induction =>
      subst here
      have moved :
          (system host serve initial).step world (.answer client choice) =
            some _ :=
        World.step_call serve present responded
      exact
        induction (.next reached trivial moved) rfl
          (Function.update_self client _ _)

/-- A client that arrives first and is served alone. -/
theorem reachable_of_alone
    {host : Host interface Client Choice Shared}
    {serve : Request → Program interface ε α}
    {initial : Shared → Prop} {client : Client} {request : Request}
    {left : Program interface ε α} {shared last : Shared}
    (isInitial : initial shared)
    (alone : Alone host client (serve request) shared left last) :
    ∃ world, Reachable (system host serve initial) unrestricted world ∧
      world.shared = last := by
  have start :
      Reachable (system host serve initial) unrestricted
        (⟨shared, fun _ => none⟩ :
          World interface Client Request Shared ε α) :=
    .start ⟨isInitial, fun _ => rfl⟩
  have moved :
      (system host serve initial).step
          (⟨shared, fun _ => none⟩ :
            World interface Client Request Shared ε α)
          (.arrive client request) =
        some
          ⟨shared,
            Function.update (fun _ => none) client
              (some ⟨request, 0, serve request⟩)⟩ :=
    rfl
  have present :
      (Function.update (fun _ => none) client
          (some ⟨request, 0, serve request⟩) :
        Client → Option (Session interface Request ε α)) client =
        some ⟨request, 0, serve request⟩ :=
    Function.update_self client _ _
  exact alone.reachable (.next start trivial moved) rfl present

end Trackward.Lib.Sessions
