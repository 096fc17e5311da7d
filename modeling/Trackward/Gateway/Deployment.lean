import Trackward.Gateway.Histories
import Trackward.Ledger.Answers
import Trackward.Ledger.Schema
import Trackward.Lib.Substitution

/-!
# The gateway in front of the ledger

A write of the ledger client is a request over HTTP.  It may not arrive; the
ledger may refuse it; and where it is accepted, the answer may be lost.  In
between stand the statements of the ledger's own handler, among those of other
requests.  A handler does not outlive its connection: where this breaks, the
statements that are left fail, and so does the answer.

`deployed` is the gateway with this ledger behind it: one database, and the
handlers of tools and approvals with every write carried out by the handler of
its route.
-/

namespace Trackward.Gateway.Deployment

open Trackward.ChainCore.Chrono
open Trackward.ChainCore.Encode
open Trackward.ChainCore.JsonValue
open Trackward.Gateway.Calls
open Trackward.Gateway.Handlers
open Trackward.Ledger.Actor
open Trackward.Ledger.Answers
open Trackward.Ledger.Models (Effect Fault)
open Trackward.Ledger.Records
open Trackward.Lib
open Trackward.Lib.Octets
open Trackward.Lib.Programs
open Trackward.Lib.Runs
open Trackward.Lib.Sessions
open Trackward.Lib.Substitution

/-! ## The ledger client -/

/-- What the client of the ledger was built with. -/
structure LedgerClient where
  actor : String
  token : Option String

/-- The headers of every write. -/
def LedgerClient.headers (client : LedgerClient) : Headers :=
  (client.token.map fun token =>
      ("authorization", utf8 ("Bearer " ++ token))).toList ++
    [(actorHeader, utf8 client.actor)]

/--
The path of a write to the ledger.  A JSON value is written by one side and
read by the other, which may refuse it; the texts are those of an error.
-/
structure Wire where
  transmit : Json → Option Json
  unreadable : LedgerCall → String
  refusal : LedgerCall → HttpError → String

/-- What the ledger makes up when a write arrives. -/
structure Arrival where
  id : Uuid
  now : DateTime
  later : DateTime

/-- The route and the body of a write; what it leaves out has a default. -/
def routeOf (wire : Wire) (arrival : Arrival) :
    LedgerCall → Option WriteRoute
  | .createRun agent metadata => do
      let metadata ← wire.transmit metadata
      return .createRun arrival.id
        { agent := agent
          startedAt := arrival.now
          metadata := metadata }
  | .bindRun runId binding =>
      some
        (.record
          (.binding runId
            { promptVersionId := binding.promptVersionId
              policyVersionId := binding.policyVersionId
              evalResultId := binding.evalResultId }))
  | .appendEvent runId kind body => do
      let body ← wire.transmit body
      return .event arrival.id runId
        { kind := kind
          body := body
          occurredAt := arrival.now }
  | .recordToolInvocation runId tool input output status code => do
      let input ← wire.transmit input
      let output ← wire.transmit output
      return .toolInvocation arrival.id
        { runId := runId
          tool := tool
          input := input
          output := output
          status := status
          statusCode := code.map fun code => Int32.ofNat code.toNat
          startedAt := arrival.now
          finishedAt := arrival.later
          metadata := Json.null }
  | .recordSideEffect runId toolInvocationId kind target status text => do
      let text ← wire.transmit text
      return .sideEffect arrival.id
        { runId := runId
          toolInvocationId := toolInvocationId
          kind := kind
          target := target
          status := status
          confirmation := text
          observedAt := arrival.now }
  | .recordHumanApproval id runId tool decision reason requestedAt =>
      some
        (.humanApproval
          { id := id
            runId := runId
            tool := tool
            decision := decision
            reason := reason
            decidedBy := none
            requestedAt := requestedAt
            decidedAt := arrival.now
            metadata := Json.null })

/-- A deployment: how the ledger was built, its client, and the path. -/
structure Setup where
  state : AppState
  client : LedgerClient
  wire : Wire

/-- The ledger's handler of a write, if the write can be read. -/
def handlerOf (setup : Setup) (arrival : Arrival) (call : LedgerCall) :
    Option Answering :=
  (routeOf setup.wire arrival call).bind
    (answerTo setup.state setup.client.headers)

/-- The id of a row, which a binding shares with its run. -/
def idOf : Entry → Uuid
  | .ofRow (.run run) => run.id
  | .ofRow (.chained row) => row.columns.id
  | .ofRow (.anchor anchor _) => anchor.id
  | .ofRecord (.binding binding) => binding.runId
  | .ofRecord _ => 0

/-- The number of an event, 0 for other rows. -/
def seqOf : Entry → Int64
  | .ofRow (.chained (.event event)) => event.seq
  | _ => 0

/-! ## Calls of the deployed gateway -/

/-- A call of a handler: to the gateway itself, or on the way of a write. -/
inductive DeployedOp where
  | gateway (op : Op)
  | deliver (call : LedgerCall)
  | statement (op : wholeDb.Op)
  | reply

/-- What each of these answers. -/
def DeployedOp.Answer : DeployedOp → Type
  | .gateway op => op.Answer
  | .deliver _ => Except String Arrival
  | .statement op => wholeDb.Answer op
  | .reply => Except String Unit

/-- The interface of the handlers when they are deployed. -/
def deployedHost : Interface where
  Op := DeployedOp
  Answer := DeployedOp.Answer

/-- Run a handler of the ledger to its end, whatever that is. -/
def onLedger {α : Type} :
    Program wholeDb HttpError α →
      Program deployedHost Empty (Except HttpError α)
  | .done value => .done (.ok value)
  | .raise error => .done (.error error)
  | .call op next => .call (.statement op) fun answer => onLedger (next answer)

/-- What the client makes of the end of the ledger's handler. -/
def concluded (setup : Setup) (call : LedgerCall) :
    Except HttpError Entry → Except String (LedgerReply call)
  | .ok entry => .ok (.accepted (idOf entry) (seqOf entry) call)
  | .error error => .error (setup.wire.refusal call error)

/-- The answer of the ledger is sent back, and may be lost. -/
def sendBack (setup : Setup) (call : LedgerCall)
    (outcome : Except HttpError Entry) :
    Program deployedHost Empty (Except String (LedgerReply call)) :=
  .call .reply fun answer =>
    match (answer : Except String Unit) with
    | .ok () => .done (concluded setup call outcome)
    | .error text => .done (.error text)

/-- The ledger has read a write, or cannot read it. -/
def handled (setup : Setup) (call : LedgerCall) :
    Option Answering →
      Program deployedHost Empty (Except String (LedgerReply call))
  | none => .done (.error (setup.wire.unreadable call))
  | some handler => splice (onLedger handler) (sendBack setup call)

/-- A write to the ledger. -/
def exchange (setup : Setup) (call : LedgerCall) :
    Program deployedHost Empty (Except String (LedgerReply call)) :=
  .call (.deliver call) fun answer =>
    match (answer : Except String Arrival) with
    | .error text => .done (.error text)
    | .ok arrival => handled setup call (handlerOf setup arrival call)

/-- How each call of a handler is carried out. -/
def carry (setup : Setup) :
    (op : gatewayHost.Op) → Program deployedHost Empty (gatewayHost.Answer op)
  | .ledger call => exchange setup call
  | op => .call (.gateway op) .done

/-! ## The host -/

/-- The state of the gateway and the database of the ledger. -/
structure Deployed (Client : Type) where
  gateway : State Client
  ledger : Transactions.State Client Int64 Entry Effect

/-- What the environment decides about an answer. -/
inductive DeployedChoice where
  | gateway (choice : Choice)
  | arrive (arrival : Arrival)
  | statement (choice : Transactions.Choice Fault)
  | proceed
  | fail (text : String)

section Host

variable {Client : Type} [DecidableEq Client]

/-- The call is one to the ledger, which the gateway itself cannot answer. -/
def isWrite : Op → Bool
  | .ledger _ => true
  | _ => false

/-- The transaction of a client has ended at the ledger. -/
def Deployed.release (state : Deployed Client) (client : Client) :
    Deployed Client :=
  { state with ledger := state.ledger.release client }

/-- The answer to a call, if the environment's choice is one for it. -/
def Deployed.respond (state : Deployed Client) (client : Client) :
    DeployedChoice → (op : DeployedOp) →
      Option (op.Answer × Deployed Client)
  | .gateway choice, .gateway op =>
      if isWrite op then none
      else
        (state.gateway.respond client choice op).map fun found =>
          (found.1, { state with gateway := found.2 })
  | .arrive arrival, .deliver _ => some (.ok arrival, state)
  | .fail text, .deliver _ => some (.error text, state)
  | .statement choice, .statement op =>
      ((Transactions.host Ledger.Schema.accepts).respond client choice op
          state.ledger).map fun found =>
        (found.1, { state with ledger := found.2 })
  | .proceed, .reply => some (.ok (), state.release client)
  | .fail text, .reply => some (.error text, state.release client)
  | _, _ => none

/-- The gateway and the ledger as a host of the deployed handlers. -/
def deployment (Client : Type) [DecidableEq Client] :
    Host deployedHost Client DeployedChoice (Deployed Client) where
  respond := fun client choice op state => state.respond client choice op
  depart := fun client state =>
    { gateway := (host Client).depart client state.gateway
      ledger := state.ledger.release client }

/-- Nothing is pending, and the tables of the ledger are empty. -/
def Deployed.isFresh (state : Deployed Client) : Prop :=
  state.gateway = .initial ∧
    Transactions.Protocol.atRest (fun rows => rows = []) state.ledger

/-- The deployed gateway with all requests in flight. -/
abbrev DeployedWorld (Client : Type) :=
  World deployedHost Client Request (Deployed Client) Error Response

/-- All runs of a gateway with a ledger of its own. -/
def deployed (Client : Type) [DecidableEq Client] (service : Service)
    (setup : Setup) :
    System (DeployedWorld Client) (Move Client Request DeployedChoice) :=
  system (deployment Client)
    (fun request => substitute (carry setup) (serve service request))
    Deployed.isFresh

end Host

/-! ## An example -/

/-- The gateway knows the token of the ledger, and every value is readable. -/
def trustedSetup : Setup where
  state := guardedState
  client := ⟨"gateway", some "secret"⟩
  wire :=
    { transmit := some
      unreadable := fun _ => "unreadable"
      refusal := fun _ _ => "refused" }

/-- Nobody has come yet. -/
def idleDeployment : DeployedWorld Nat where
  shared :=
    { gateway := .initial
      ledger :=
        { committed := []
          pending := fun _ => []
          holder := fun _ => none
          clock := 0
          emitted := [] } }
  sessions := fun _ => none

theorem initial_idleDeployment (service : Service) (setup : Setup) :
    (deployed Nat service setup).initial idleDeployment :=
  ⟨⟨rfl, rfl, fun _ => rfl, fun _ => rfl⟩, fun _ => rfl⟩

end Trackward.Gateway.Deployment
