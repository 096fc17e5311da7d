import Trackward.Gateway.Boot
import Trackward.Gateway.Deployment
import Trackward.Gateway.Retrieval
import Trackward.Ledger.VersionAnswers

/-!
# Gateways and their ledger

Several gateways start, each with a registry directory of its own, and serve
requests on one ledger.  Other clients of the ledger run any statements, as
long as they bind no run: that is left to the gateways.

A gateway may be started again at any time; with other files in its registry
it is another gateway.
-/

namespace Trackward.Gateway.Gateways

open Trackward.ChainCore.Encode
open Trackward.ChainCore.JsonValue
open Trackward.Gateway.Boot
open Trackward.Gateway.Calls
open Trackward.Gateway.Deployment
open Trackward.Gateway.Handlers
open Trackward.Gateway.Retrieval
open Trackward.Ledger.Actor
open Trackward.Ledger.Answers
open Trackward.Ledger.Models (Effect Fault Part)
open Trackward.Ledger.Records
open Trackward.Ledger.VersionAnswers
open Trackward.Lib
open Trackward.Lib.Octets
open Trackward.Lib.Programs
open Trackward.Lib.Runs
open Trackward.Lib.Sessions
open Trackward.Lib.Substitution

/-! ## Gateways -/

/-- A gateway as it was built and configured. -/
structure Instance where
  runtime : Runtime
  config : Config
  registry : RegistryBinding
  retrievalBackend : Option String
  client : LedgerClient
  wire : Wire
  refusal : HttpError → String
  multipart : Upload → List (Except String Part)
  jsonToVec : Json → Bytes
  jsonError : Bytes → String

/-- The service of a gateway with a binding. -/
def Instance.service (gateway : Instance) (binding : ResolvedBinding) :
    Service where
  runtime := gateway.runtime
  config := gateway.config
  binding := binding

/-- The proxies of a gateway with a binding. -/
def Instance.proxies (gateway : Instance) (binding : ResolvedBinding) :
    Proxies where
  service := gateway.service binding
  retrievalBackend := gateway.retrievalBackend
  jsonToVec := gateway.jsonToVec
  jsonError := gateway.jsonError

/-- The ledger, and the gateways by their names. -/
structure Fleet (Name : Type) where
  ledger : AppState
  order : EvalOrder
  sha256 : Bytes → Digest
  gateways : Name → Instance

variable {Name : Type}

/-- A gateway and the ledger. -/
def Fleet.setup (fleet : Fleet Name) (name : Name) : Setup where
  state := fleet.ledger
  client := (fleet.gateways name).client
  wire := (fleet.gateways name).wire

/-! ## Calls -/

/-- What sessions do: as a gateway that starts or serves, or at the ledger. -/
inductive Call (Name : Type) where
  | proxy (name : Name) (op : ProxyOp)
  | registry (name : Name) (call : RegistryCall)
  | binding (name : Name)
  | listen (name : Name) (binding : ResolvedBinding)
  | statement (op : wholeDb.Op)

/-- What each of these answers. -/
def Call.Answer : Call Name → Type
  | .proxy _ op => op.Answer
  | .registry _ call => Except String call.Reply
  | .binding _ => Option ResolvedBinding
  | .listen _ _ => Unit
  | .statement op => wholeDb.Answer op

/-- The interface of the sessions. -/
def calls (Name : Type) : Interface where
  Op := Call Name
  Answer := Call.Answer

/-- A step of a call, which may be the way of a request to the ledger. -/
inductive FleetOp (Name : Type) where
  | gateway (name : Name) (op : Op)
  | search (query : Query)
  | deliver
  | statement (op : wholeDb.Op)
  | reply
  | binding (name : Name)
  | listen (name : Name) (binding : ResolvedBinding)

/-- What each of these answers. -/
def FleetOp.Answer : FleetOp Name → Type
  | .gateway _ op => op.Answer
  | .search _ => Except String BackendResponse
  | .deliver => Except String Arrival
  | .statement op => wholeDb.Answer op
  | .reply => Except String Unit
  | .binding _ => Option ResolvedBinding
  | .listen _ _ => Unit

/-- The interface of the steps. -/
def fleetHost (Name : Type) : Interface where
  Op := FleetOp Name
  Answer := FleetOp.Answer

/-! ## Requests to the ledger -/

/-- Run a handler of the ledger to its end, whatever that is. -/
def onDatabase {α : Type} :
    Program wholeDb HttpError α →
      Program (fleetHost Name) Empty (Except HttpError α)
  | .done value => .done (.ok value)
  | .raise error => .done (.error error)
  | .call op next =>
      .call (.statement op) fun answer => onDatabase (next answer)

/-- The end of a handler is sent back and read, or is lost. -/
def returned {β γ : Type} (read : Except HttpError β → Except String γ)
    (outcome : Except HttpError β) :
    Program (fleetHost Name) Empty (Except String γ) :=
  .call .reply fun answer =>
    match (answer : Except String Unit) with
    | .ok () => .done (read outcome)
    | .error text => .done (.error text)

/-- The ledger serves a request that it can read. -/
def served {β γ : Type} (unreadable : String)
    (read : Except HttpError β → Except String γ) :
    Option (Program wholeDb HttpError β) →
      Program (fleetHost Name) Empty (Except String γ)
  | none => .done (.error unreadable)
  | some handler => splice (onDatabase handler) (returned read)

/-- A request to the ledger: it arrives or it does not. -/
def send {β γ : Type} (handler : Arrival → Option (Program wholeDb HttpError β))
    (unreadable : String) (read : Except HttpError β → Except String γ) :
    Program (fleetHost Name) Empty (Except String γ) :=
  .call .deliver fun answer =>
    match (answer : Except String Arrival) with
    | .error text => .done (.error text)
    | .ok arrival => served unreadable read (handler arrival)

/-- The part of an answer that a gateway reads, or an error. -/
def reading {β γ : Type} (refusal : HttpError → String) (part : β → γ) :
    Except HttpError β → Except String γ
  | .ok value => .ok (part value)
  | .error error => .error (refusal error)

/-- The id of a version. -/
def versionId : Record → Uuid
  | .promptVersion row => row.id
  | .policyVersion row => row.id
  | _ => 0

/-- What a gateway that starts sends to the ledger. -/
def asking (fleet : Fleet Name) (name : Name) :
    (call : RegistryCall) →
      Program (fleetHost Name) Empty (Except String call.Reply)
  | .registerPromptVersion workflow version gitSha contentHash =>
      send
        (fun arrival =>
          some
            (registering fleet.ledger (fleet.gateways name).client.headers
              fun actor =>
                .prompt actor arrival.id
                  { workflow := workflow
                    version := version
                    gitSha := gitSha
                    contentHash := contentHash
                    metadata := Json.null }))
        "" (reading (fleet.gateways name).refusal versionId)
  | .registerPolicyVersion scope version gitSha contentHash =>
      send
        (fun arrival =>
          some
            (registering fleet.ledger (fleet.gateways name).client.headers
              fun actor =>
                .policy actor arrival.id
                  { scope := scope
                    version := version
                    gitSha := gitSha
                    contentHash := contentHash
                    metadata := Json.null }))
        "" (reading (fleet.gateways name).refusal versionId)
  | .latestEvalResult workflow version =>
      send
        (fun _ =>
          some
            (listing fleet.ledger fleet.order
              (fleet.gateways name).client.headers
              ⟨some workflow, some version, none⟩))
        ""
        (reading (fleet.gateways name).refusal fun rows : List EvalResult =>
          rows.head?.map EvalResult.id)

/-- A write of the ledger client. -/
def writing (fleet : Fleet Name) (name : Name) (call : LedgerCall) :
    Program (fleetHost Name) Empty (Except String (LedgerReply call)) :=
  send (fun arrival => handlerOf (fleet.setup name) arrival call)
    ((fleet.gateways name).wire.unreadable call)
    (concluded (fleet.setup name) call)

/-- `LedgerClient::upload_artifact`. -/
def uploading (fleet : Fleet Name) (name : Name) (upload : Upload) :
    Program (fleetHost Name) Empty (Except String Uuid) :=
  send
    (fun arrival =>
      answerTo fleet.ledger (fleet.gateways name).client.headers
        (.artifact arrival.id ((fleet.gateways name).multipart upload)))
    "" (reading (fleet.gateways name).refusal idOf)

/-- How each call of a session is carried out. -/
def carryOut (fleet : Fleet Name) :
    (call : (calls Name).Op) →
      Program (fleetHost Name) Empty ((calls Name).Answer call)
  | .proxy name (.gateway (.ledger call)) => writing fleet name call
  | .proxy name (.gateway op) => .call (.gateway name op) .done
  | .proxy name (.upload upload) => uploading fleet name upload
  | .proxy _ (.search query) => .call (.search query) .done
  | .registry name call => asking fleet name call
  | .binding name => .call (.binding name) .done
  | .listen name binding => .call (.listen name binding) .done
  | .statement op => .call (.statement op) .done

/-! ## Sessions -/

/-- The entry binds no run. -/
def Unbinding (entry : Entry) : Prop :=
  ∀ row, entry ≠ .ofRecord (.binding row)

/-- A gateway starts, a gateway serves a request, or another client comes. -/
inductive FleetRequest (Name : Type) where
  | start (name : Name)
  | serve (name : Name) (request : Request)
  | retrieve (name : Name) (runIdHeader : Option String) (input : Json)
  | other (program : Program wholeDb HttpError Unit)
      (only : program.OnlyCalls (Transactions.Op.Writes Unbinding))

/-- Serve with the binding of a gateway, once it listens. -/
def bound (name : Name) (handler : ResolvedBinding → ProxyHandler Response) :
    Program (calls Name) Error (Option Response) :=
  .call (.binding name) fun answer =>
    match (answer : Option ResolvedBinding) with
    | none => .raise (.internal "connection refused")
    | some binding =>
        (handler binding).translate (.proxy name) (fun _ answer => answer)
            id >>=
          fun response => .done (some response)

/-- The handler of a session. -/
def serveFleet (fleet : Fleet Name) :
    FleetRequest Name → Program (calls Name) Error (Option Response)
  | .start name => do
      let binding : ResolvedBinding ←
        (bootBinding fleet.sha256 (fleet.gateways name).registry :
            Booting ResolvedBinding).translate (.registry name)
          (fun _ answer => answer) id
      .call (.listen name binding) fun _ => .done none
  | .serve name request =>
      bound name fun binding =>
        lift (serve ((fleet.gateways name).service binding) request)
  | .retrieve name runIdHeader input =>
      bound name fun binding =>
        retrieve ((fleet.gateways name).proxies binding) runIdHeader input
  | .other program _ => do
      let _ ←
        program.translate Call.statement (fun _ answer => answer)
          fun _ => Error.internal ""
      return none

/-! ## The host -/

/-- The gateways that listen, with what they are bound to, and the ledger. -/
structure FleetState (Client Name : Type) where
  gateways : Name → State Client
  bindings : Name → Option ResolvedBinding
  ledger : Transactions.State Client Int64 Entry Effect

section Host

variable {Client : Type} [DecidableEq Client] [DecidableEq Name]

/-- The answer to a step, if the environment's choice is one for it. -/
def FleetState.respond (state : FleetState Client Name) (client : Client) :
    DeployedChoice → (op : FleetOp Name) →
      Option (op.Answer × FleetState Client Name)
  | .gateway choice, .gateway name op =>
      if isWrite op then none
      else
        ((state.gateways name).respond client choice op).map fun found =>
          (found.1,
            { state with
              gateways := Function.update state.gateways name found.2 })
  | .gateway (.respond response), .search _ => some (response, state)
  | .arrive arrival, .deliver => some (.ok arrival, state)
  | .fail text, .deliver => some (.error text, state)
  | .statement choice, .statement op =>
      ((Transactions.host Ledger.Schema.accepts).respond client choice op
          state.ledger).map fun found =>
        (found.1, { state with ledger := found.2 })
  | .proceed, .reply =>
      some (.ok (), { state with ledger := state.ledger.release client })
  | .fail text, .reply =>
      some (.error text, { state with ledger := state.ledger.release client })
  | .proceed, .binding name => some (state.bindings name, state)
  | .proceed, .listen name binding =>
      some ((),
        { state with
          bindings := Function.update state.bindings name (some binding) })
  | _, _ => none

/-- The gateways and the ledger as a host. -/
def gatewaysHost (Client Name : Type) [DecidableEq Client]
    [DecidableEq Name] :
    Host (fleetHost Name) Client DeployedChoice (FleetState Client Name) where
  respond := fun client choice op state => state.respond client choice op
  depart := fun client state =>
    { state with
      gateways := fun name =>
        (host Client).depart client (state.gateways name)
      ledger := state.ledger.release client }

/-- No gateway listens, and the tables of the ledger are empty. -/
def FleetState.isFresh (state : FleetState Client Name) : Prop :=
  (∀ name, state.gateways name = .initial) ∧
    (∀ name, state.bindings name = none) ∧
      Transactions.Protocol.atRest (fun rows => rows = []) state.ledger

/-- The gateways and the ledger with all sessions. -/
abbrev FleetWorld (Client Name : Type) :=
  World (fleetHost Name) Client (FleetRequest Name) (FleetState Client Name)
    Error (Option Response)

/-- All runs of the gateways and their ledger. -/
def gateways (Client : Type) [DecidableEq Client] (fleet : Fleet Name) :
    System (FleetWorld Client Name)
      (Move Client (FleetRequest Name) DeployedChoice) :=
  system (gatewaysHost Client Name)
    (fun request => substitute (carryOut fleet) (serveFleet fleet request))
    FleetState.isFresh

end Host

end Trackward.Gateway.Gateways
