import Trackward.Gateway.Refinement
import Trackward.Ledger.SideEffects
import Trackward.Lib.DatabaseParts

/-!
# The ledger behind the gateway is a ledger

The deployed gateway uses the ledger as any clients would: what its exchanges
do at the database is what requests of the ledger's own router do.  So every
state of the ledger behind the gateway is one that the ledger reaches by
itself, and what is true of the ledger is true of it there.
-/

namespace Trackward.Gateway.DeployedLedger

open Trackward.Gateway.Calls
open Trackward.Gateway.Deployment
open Trackward.Gateway.Handlers
open Trackward.Gateway.Refinement
open Trackward.Gateway.SideEffectRecords (mailService)
open Trackward.Ledger.Actor
open Trackward.Ledger.Answers
open Trackward.Ledger.DossierReads
open Trackward.Ledger.Dossiers
open Trackward.Ledger.Models (Fault)
open Trackward.Ledger.Records
open Trackward.Ledger.SideEffects
open Trackward.Lib
open Trackward.Lib.DatabaseParts
open Trackward.Lib.Programs
open Trackward.Lib.Runs
open Trackward.Lib.Sessions
open Trackward.Lib.Substitution

variable {Client : Type} [DecidableEq Client]

/-! ## Sessions of the two systems -/

/-- What a handler of the ledger has left to do, if its row is not asked for. -/
def forgotten (handler : Answering) :
    Program wholeDb HttpError (Option Dossier) :=
  handler >>= fun _ => .done none

/-- A session of the ledger. -/
abbrev LedgerSession :=
  Session wholeDb LedgerRequest HttpError (Option Dossier)

/-- Between its writes a client has no session at the ledger. -/
inductive Attends (setup : Setup) :
    Program deployedHost Error Response → Option LedgerSession → Prop where
  | idle (program : Program gatewayHost Error Response) :
      Attends setup (substitute (carry setup) program) none
  | serving {call : LedgerCall} (handler : Answering)
      (next :
        Except String (LedgerReply call) →
          Program gatewayHost Error Response)
      (request : LedgerRequest) (calls : Nat) :
      Attends setup
        (splice (splice (onLedger handler) (sendBack setup call))
          fun answer => substitute (carry setup) (next answer))
        (some ⟨request, calls, forgotten handler⟩)

/-- A session of the gateway, and the one it has at the ledger. -/
inductive Pairs (setup : Setup) :
    Option (Session deployedHost Request Error Response) →
      Option LedgerSession → Prop where
  | absent : Pairs setup none none
  | present {request : Request} {calls : Nat}
      {program : Program deployedHost Error Response}
      {session : Option LedgerSession}
      (attends : Attends setup program session) :
      Pairs setup (some ⟨request, calls, program⟩) session

/-- Whoever arrives at the ledger writes with the headers of the client. -/
def OnlyWrites (setup : Setup) (_ : WholeWorld Client)
    (move : Move Client LedgerRequest (Transactions.Choice Fault)) : Prop :=
  ∀ client request, move = .arrive client request →
    ∃ route, request = .write ⟨none, setup.client.headers, route⟩

/-- A world of the ledger that is the one behind the gateway. -/
structure Backs (setup : Setup) (order : RowOrder)
    (world : DeployedWorld Client) (whole : WholeWorld Client) : Prop where
  reached :
    Reachable (freshLedger setup.state order) (OnlyWrites setup) whole
  shared : whole.shared = world.shared.ledger
  pairs :
    ∀ client, Pairs setup (world.sessions client) (whole.sessions client)
  resting : IdleResting whole

/-! ## Steps of the ledger -/

section Ledger

variable {setup : Setup} {order : RowOrder} {whole : WholeWorld Client}

/-- A write arrives at the ledger. -/
theorem exists_arrived
    (reached :
      Reachable (freshLedger setup.state order) (OnlyWrites setup) whole)
    {client : Client} (absent : whole.sessions client = none)
    {route : WriteRoute} {handler : Answering}
    (answers :
      answerTo setup.state setup.client.headers route = some handler) :
    Reachable (freshLedger setup.state order) (OnlyWrites setup)
      ⟨whole.shared,
        Function.update whole.sessions client
          (some
            ⟨.write ⟨none, setup.client.headers, route⟩, 0,
              forgotten handler⟩)⟩ := by
  generalize request : HttpRequest.mk none setup.client.headers route = asked
  have answers : answerTo setup.state asked.headers asked.route = handler := by
    rw [← request]
    exact answers
  have served :
      serveAll setup.state order (.write asked) = forgotten handler := by
    rw [serveAll, ← handle_of_answerTo answers, Program.bind_assoc]
    rfl
  have moved :
      (freshLedger setup.state order).step whole
          (.arrive client (.write asked)) =
        some
          ⟨whole.shared,
            Function.update whole.sessions client
              (some ⟨.write asked, 0, forgotten handler⟩)⟩ := by
    simp [freshLedger, wholeLedger, system, World.step, absent, served]
  refine .next reached ?_ moved
  rintro _ _ ⟨⟩
  exact ⟨route, by rw [request]⟩

end Ledger

/-! ## Answers in the deployment -/

section Answers

variable {state after : Deployed Client} {client : Client}
variable {choice : DeployedChoice}

theorem ledger_of_gateway {op : Op} {answer : op.Answer}
    (responded :
      state.respond client choice (.gateway op) = some (answer, after)) :
    after.ledger = state.ledger := by
  cases choice with
  | gateway choice =>
      rw [Deployed.respond] at responded
      split at responded
      · cases responded
      · rcases Option.map_eq_some_iff.mp responded with ⟨found, _, ⟨⟩⟩
        rfl
  | arrive | statement | proceed | fail => cases responded

theorem ledger_of_deliver {call : LedgerCall}
    {answer : Except String Arrival}
    (responded :
      state.respond client choice (.deliver call) = some (answer, after)) :
    after.ledger = state.ledger := by
  cases choice with
  | arrive arrival | fail text =>
      cases responded
      rfl
  | gateway | statement | proceed => cases responded

theorem ledger_of_reply {answer : Except String Unit}
    (responded : state.respond client choice .reply = some (answer, after)) :
    after.ledger = state.ledger.release client := by
  cases choice with
  | proceed | fail text =>
      cases responded
      rfl
  | gateway | statement | arrive => cases responded

theorem ledger_of_statement {op : wholeDb.Op} {answer : wholeDb.Answer op}
    (responded :
      state.respond client choice (.statement op) = some (answer, after)) :
    ∃ choice',
      (Transactions.host Ledger.Schema.accepts).respond client choice' op
          state.ledger =
        some (answer, after.ledger) := by
  cases choice with
  | statement choice' =>
      rcases Option.map_eq_some_iff.mp responded with ⟨found, answered, ⟨⟩⟩
      exact ⟨choice', answered⟩
  | gateway | arrive | proceed | fail => cases responded

end Answers

/-! ## Steps of the deployment -/

section Steps

variable {setup : Setup} {order : RowOrder} {world : DeployedWorld Client}
variable {whole : WholeWorld Client} {client : Client} {request : Request}
variable {calls : Nat} {shared : Deployed Client}

/-- One session of each system is replaced. -/
theorem pairs_update
    (pairs :
      ∀ other, Pairs setup (world.sessions other) (whole.sessions other))
    {session : Option (Session deployedHost Request Error Response)}
    {session' : Option LedgerSession} (pair : Pairs setup session session')
    (other : Client) :
    Pairs setup (Function.update world.sessions client session other)
      (Function.update whole.sessions client session' other) := by
  by_cases same : other = client
  · subst same
    simpa using pair
  · simpa [same] using pairs other

/-- A step of the gateway itself. -/
theorem Backs.still (backs : Backs setup order world whole)
    (same : shared.ledger = world.shared.ledger)
    {program : Program deployedHost Error Response}
    (attends : Attends setup program (whole.sessions client)) :
    Backs setup order
      ⟨shared,
        Function.update world.sessions client
          (some ⟨request, calls, program⟩)⟩
      whole where
  reached := backs.reached
  shared := backs.shared.trans same.symm
  pairs := by
    intro other
    have pair := @pairs_update _ _ _ _ _ client backs.pairs _ _
      (@Pairs.present _ request calls _ _ attends) other
    rwa [Function.update_eq_self] at pair
  resting := backs.resting

/-- A write is served at the ledger from now on. -/
theorem Backs.arrive (backs : Backs setup order world whole)
    (same : shared.ledger = world.shared.ledger)
    (absent : whole.sessions client = none) {arrival : Arrival}
    {call : LedgerCall} {handler : Answering}
    (handles : handlerOf setup arrival call = some handler)
    (next :
      Except String (LedgerReply call) → Program gatewayHost Error Response) :
    ∃ whole',
      Backs setup order
        ⟨shared,
          Function.update world.sessions client
            (some
              ⟨request, calls,
                splice (splice (onLedger handler) (sendBack setup call))
                  fun answer => substitute (carry setup) (next answer)⟩)⟩
        whole' := by
  rcases Option.bind_eq_some_iff.mp handles with ⟨route, _, answers⟩
  exact
    ⟨_, exists_arrived backs.reached absent answers,
      backs.shared.trans same.symm,
      pairs_update backs.pairs (.present (.serving handler next _ _)),
      backs.resting.update (fun other _ => .refl other _) _⟩

/-- A statement of a write is one of its session at the ledger. -/
theorem Backs.statement (backs : Backs setup order world whole)
    {ledgerRequest : LedgerRequest} {done : Nat} {op : wholeDb.Op}
    {rest : wholeDb.Answer op → Answering}
    (present :
      whole.sessions client =
        some ⟨ledgerRequest, done, forgotten (.call op rest)⟩)
    {choice : Transactions.Choice Ledger.Models.Fault}
    {answer : wholeDb.Answer op}
    (responded :
      (Transactions.host Ledger.Schema.accepts).respond client choice op
          world.shared.ledger =
        some (answer, shared.ledger))
    {call : LedgerCall}
    (next :
      Except String (LedgerReply call) → Program gatewayHost Error Response) :
    ∃ whole',
      Backs setup order
        ⟨shared,
          Function.update world.sessions client
            (some
              ⟨request, calls,
                splice (splice (onLedger (rest answer)) (sendBack setup call))
                  fun answer => substitute (carry setup) (next answer)⟩)⟩
        whole' := by
  rw [← backs.shared] at responded
  have moved :
      (freshLedger setup.state order).step whole (.answer client choice) =
        _ :=
    World.step_call (serveAll setup.state order) present responded
  have permitted : OnlyWrites setup whole (.answer client choice) := by
    rintro _ _ ⟨⟩
  exact
    ⟨_, .next backs.reached permitted moved, rfl,
      pairs_update backs.pairs (.present (.serving (rest answer) next _ _)),
      backs.resting.update (Transactions.respond_frame responded).1 _⟩

/-- A client ends its session at the ledger. -/
theorem Backs.leave (backs : Backs setup order world whole)
    (same : shared.ledger = world.shared.ledger.release client)
    {session : Option (Session deployedHost Request Error Response)}
    (pair : Pairs setup session none) :
    ∃ whole',
      Backs setup order
        ⟨shared, Function.update world.sessions client session⟩ whole' := by
  have departs (world : WholeWorld Client) (client : Client) :
      OnlyWrites setup world (.depart client) := by
    rintro _ _ ⟨⟩
  rcases exists_left backs.reached departs backs.resting client with
    ⟨reached, resting⟩
  refine ⟨_, reached, ?_, pairs_update backs.pairs pair, resting⟩
  rw [backs.shared]
  exact same.symm

/-- Between its writes a session of the gateway starts one, or goes on. -/
theorem Backs.ofIdle (backs : Backs setup order world whole)
    (absent : whole.sessions client = none) {op : DeployedOp}
    {rest : op.Answer → Program deployedHost Error Response}
    {program : Program gatewayHost Error Response}
    (here :
      substitute (carry setup) program =
        @Program.call deployedHost _ _ op rest)
    {choice : DeployedChoice} {answer : op.Answer}
    (responded :
      world.shared.respond client choice op = some (answer, shared)) :
    ∃ whole',
      Backs setup order
        ⟨shared,
          Function.update world.sessions client
            (some ⟨request, calls, rest answer⟩)⟩
        whole' := by
  have goesOn {program : Program gatewayHost Error Response}
      (same : shared.ledger = world.shared.ledger) :
      ∃ whole',
        Backs setup order
          ⟨shared,
            Function.update world.sessions client
              (some ⟨request, calls, substitute (carry setup) program⟩)⟩
          whole' := by
    refine ⟨whole, backs.still same ?_⟩
    rw [absent]
    exact .idle program
  cases program with
  | done value => cases here
  | raise error => cases here
  | call here' next =>
      cases own : isWrite here' with
      | false =>
          have opened :
              substitute (carry setup) (.call here' next) =
                @Program.call deployedHost _ _ (.gateway here')
                  fun answer => substitute (carry setup) (next answer) := by
            rw [substitute, carry_of_own own]
            rfl
          rw [opened] at here
          cases here
          exact goesOn (ledger_of_gateway responded)
      | true =>
          rcases eq_ledger_of_isWrite own with ⟨call, rfl⟩
          cases here
          have same := ledger_of_deliver responded
          rcases answer with text | arrival
          · exact goesOn same
          · change
              ∃ whole',
                Backs setup order
                  ⟨shared,
                    Function.update world.sessions client
                      (some
                        ⟨request, calls,
                          splice
                            (handled setup call
                              (handlerOf setup arrival call))
                            fun answer =>
                              substitute (carry setup) (next answer)⟩)⟩
                  whole'
            cases handles : handlerOf setup arrival call with
            | none => exact goesOn same
            | some handler => exact backs.arrive same absent handles next

/-- At the ledger a session goes on with its statements until it has ended. -/
theorem Backs.ofServing (backs : Backs setup order world whole)
    {call : LedgerCall} {handler : Answering}
    {next :
      Except String (LedgerReply call) → Program gatewayHost Error Response}
    {ledgerRequest : LedgerRequest} {done : Nat}
    (present :
      whole.sessions client = some ⟨ledgerRequest, done, forgotten handler⟩)
    {op : DeployedOp}
    {rest : op.Answer → Program deployedHost Error Response}
    (here :
      (splice (splice (onLedger handler) (sendBack setup call))
          fun answer => substitute (carry setup) (next answer)) =
        @Program.call deployedHost _ _ op rest)
    {choice : DeployedChoice} {answer : op.Answer}
    (responded :
      world.shared.respond client choice op = some (answer, shared)) :
    ∃ whole',
      Backs setup order
        ⟨shared,
          Function.update world.sessions client
            (some ⟨request, calls, rest answer⟩)⟩
        whole' := by
  cases handler with
  | done entry | raise error =>
      cases here
      have released := ledger_of_reply responded
      rcases answer with text | sent
      · exact backs.leave released (.present (.idle (next _)))
      · exact backs.leave released (.present (.idle (next _)))
  | call statement continued =>
      cases here
      rcases ledger_of_statement responded with ⟨choice', answered⟩
      exact backs.statement present answered next

/-- Whatever a session of the gateway is answered, the ledger goes along. -/
theorem Backs.answer (backs : Backs setup order world whole)
    {op : DeployedOp}
    {rest : op.Answer → Program deployedHost Error Response}
    (present :
      world.sessions client = some ⟨request, calls, .call op rest⟩)
    {choice : DeployedChoice} {answer : op.Answer}
    (responded :
      world.shared.respond client choice op = some (answer, shared)) :
    ∃ whole',
      Backs setup order
        ⟨shared,
          Function.update world.sessions client
            (some ⟨request, calls + 1, rest answer⟩)⟩
        whole' := by
  have pair := backs.pairs client
  rw [present] at pair
  generalize session : whole.sessions client = found at pair
  cases pair with
  | present attends =>
      generalize here : @Program.call deployedHost _ _ op rest = program
        at attends
      cases attends with
      | idle program => exact backs.ofIdle session here.symm responded
      | serving handler next ledgerRequest done =>
          exact backs.ofServing session here.symm responded

end Steps

/-! ## Runs of the deployment -/

section Runs

variable {service : Service} {setup : Setup} {world : DeployedWorld Client}

/-- Nobody has come to the gateway, or to the ledger behind it. -/
theorem backs_initial (order : RowOrder)
    (initial : (deployed Client service setup).initial world) :
    Backs setup order world ⟨world.shared.ledger, fun _ => none⟩ where
  reached := .start ⟨initial.1.2, fun _ => rfl⟩
  shared := rfl
  pairs := by
    intro client
    rw [initial.2 client]
    exact .absent
  resting := fun client _ => .of_atRest initial.1.2 client

/-- Every step of the deployment is made by the ledger behind it. -/
theorem Backs.step {order : RowOrder} {whole : WholeWorld Client}
    (backs : Backs setup order world whole) {target : DeployedWorld Client}
    {move : Move Client Request DeployedChoice}
    (moved : (deployed Client service setup).step world move = some target) :
    ∃ whole', Backs setup order target whole' := by
  rcases World.step_cases moved with arrival | answered | departure
  · rcases arrival with ⟨client, request, rfl, absent, rfl⟩
    have pair := backs.pairs client
    rw [absent] at pair
    generalize session : whole.sessions client = found at pair
    cases pair
    refine ⟨whole, backs.still rfl ?_⟩
    rw [session]
    exact .idle (serve service request)
  · rcases answered with
      ⟨client, choice, request, calls, op, next, answer, shared, rfl, present,
        responded, rfl⟩
    exact backs.answer present responded
  · rcases departure with ⟨client, session, rfl, present, rfl⟩
    exact backs.leave rfl .absent

/-- Behind every world of the deployment there is one of the ledger. -/
theorem exists_backs (order : RowOrder)
    (reached : Reachable (deployed Client service setup) unrestricted world) :
    ∃ whole, Backs setup order world whole := by
  induction reached with
  | start initial => exact ⟨_, backs_initial order initial⟩
  | next reached permitted moved induction =>
      rcases induction with ⟨whole, backs⟩
      exact backs.step moved

/--
What the gateway and its clients do to the ledger is a run of the ledger alone,
in which everyone writes with the headers of the gateway's client.  Who has no
request at the gateway has none there.
-/
theorem deployed_ledger (order : RowOrder)
    (reached : Reachable (deployed Client service setup) unrestricted world) :
    ∃ whole : WholeWorld Client,
      Reachable (freshLedger setup.state order) (OnlyWrites setup) whole ∧
        whole.shared = world.shared.ledger ∧
          ∀ client,
            world.sessions client = none → whole.sessions client = none := by
  rcases exists_backs order reached with ⟨whole, backs⟩
  refine ⟨whole, backs.reached, backs.shared, fun client absent => ?_⟩
  have pair := backs.pairs client
  rw [absent] at pair
  generalize whole.sessions client = found at pair ⊢
  cases pair
  rfl

/-- The ledger alone reaches two runs, with an answer that was lost. -/
theorem deployed_ledger_brokenMoves :
    ∃ whole : WholeWorld Nat,
      Reachable (freshLedger trustedSetup.state .stable)
          (OnlyWrites trustedSetup) whole ∧
        whole.shared.committed.length = 2 ∧ whole.sessions 2 = none := by
  rcases
      Reachable.exists_of_replay unrestricted_of_anyMove
        (initial_idleDeployment mailService trustedSetup) brokenMoves
        (fun world =>
          decide (world.shared.ledger.committed.length = 2) &&
            (world.sessions 2).isNone)
        (by decide) with
    ⟨world, reached, checked⟩
  rw [Bool.and_eq_true, decide_eq_true_eq, Option.isNone_iff_eq_none]
    at checked
  rcases deployed_ledger .stable reached with ⟨whole, alone, same, idle⟩
  rw [← same] at checked
  exact ⟨whole, alone, checked.1, idle 2 checked.2⟩

end Runs

end Trackward.Gateway.DeployedLedger
