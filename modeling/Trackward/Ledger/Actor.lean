import Trackward.Ledger.Records
import Trackward.Ledger.Writes

/-!
# Who a row was written for

Every write route passes the bearer gate and reads the caller from a header.
The gate and the TLS handshake decide whether a request is served at all; the
name that goes on the rows is the one in the header, or the configured default
when there is none.
-/

namespace Trackward.Ledger.Actor

open Trackward.ChainCore.Chrono
open Trackward.ChainCore.Encode
open Trackward.ChainCore.JsonValue
open Trackward.Ledger.Anchoring
open Trackward.Ledger.Concurrency
open Trackward.Ledger.Models
open Trackward.Ledger.Records
open Trackward.Ledger.Routes
open Trackward.Ledger.Timestamps
open Trackward.Ledger.Writes
open Trackward.Lib.Octets
open Trackward.Lib.Programs
open Trackward.Lib.Transactions

/-! ## Headers -/

/-- The header fields of a request, with names in lower case. -/
abbrev Headers := List (String × Bytes)

/-- `HeaderValue::to_str`: the text of visible ASCII characters. -/
def toStr (value : Bytes) : Option String :=
  if value.all fun byte => 32 ≤ byte && byte < 127 || byte == 9 then
    some (String.ofList (value.map fun byte => Char.ofNat byte.toNat))
  else none

/-- `str::trim`. -/
def trim (text : String) : String :=
  String.ofList
    ((text.toList.dropWhile Char.isWhitespace).reverse.dropWhile
      Char.isWhitespace).reverse

/-- `str::strip_prefix`. -/
def stripPrefix (start text : String) : Option String :=
  if start.toList.isPrefixOf text.toList then
    some (String.ofList (text.toList.drop start.toList.length))
  else none

/-! ## The bearer gate -/

def constantTimeEq (a b : Bytes) : Bool :=
  if a.length = b.length then
    (a.zip b).foldl (fun diff pair => diff ||| (pair.1 ^^^ pair.2)) 0 = 0
  else false

/-- The request may pass: there is no token, or it presents the token. -/
def requireBearer (authToken : Option String) (headers : Headers) : Bool :=
  match authToken with
  | none => true
  | some expected =>
      match
        ((headers.lookup "authorization").bind toStr).bind
          (stripPrefix "Bearer ")
      with
      | some got => constantTimeEq (utf8 got) (utf8 expected)
      | none => false

/-! ## The actor -/

def actorHeader : String := "x-trackward-actor"

def maxActorLen : Nat := 256

inductive ActorRejection where
  | missing
  | invalid
  deriving DecidableEq

/-- The message of a rejection. -/
def ActorRejection.message : ActorRejection → String
  | .missing => "missing X-Trackward-Actor header"
  | .invalid => "invalid X-Trackward-Actor header"

/-- The caller of a request. -/
def fromRequestParts (defaultActor : Option String) (headers : Headers) :
    Except ActorRejection String :=
  match headers.lookup actorHeader with
  | some raw =>
      match toStr raw with
      | none => .error .invalid
      | some text =>
          let trimmed := trim text
          if trimmed.isEmpty || maxActorLen < (utf8 trimmed).length then
            .error .invalid
          else .ok trimmed
  | none =>
      match defaultActor with
      | some default => .ok default
      | none => .error .missing

/-! ## The router -/

/-- The write routes, with the bodies they parse and what they mint. -/
inductive WriteRoute where
  | createRun (id : Uuid) (input : CreateRun)
  | event (id runId : Uuid) (input : CreateEvent)
  | artifact (id : Uuid) (parts : List (Except String Part))
  | toolInvocation (id : Uuid) (input : CreateToolInvocation)
  | sideEffect (id : Uuid) (input : CreateSideEffect)
  | guardrail (id : Uuid) (input : CreateGuardrail)
  | humanApproval (input : CreateHumanApproval)
  | biasSlice (id : Uuid) (input : CreateBiasSlice)
  | record (request : RecordRequest)
  | anchors (global : Bool) (runId : Option Uuid)
      (untilTs : Option DateTime) (now : DateTime) (id : Uuid)
      (anchoredAt : DateTime)

/-- A request as it arrives; `peer` is the certificate of the client. -/
structure HttpRequest where
  peer : Option Bytes
  headers : Headers
  route : WriteRoute

/-- What a client authenticates with. -/
structure Credentials where
  peer : Option Bytes
  authorization : Option Bytes
  deriving DecidableEq

def HttpRequest.credentials (request : HttpRequest) : Credentials where
  peer := request.peer
  authorization := request.headers.lookup "authorization"

/-- The state the router is built with. -/
structure AppState where
  service : Service
  exporter : Export
  defaultActor : Option String
  authToken : Option String

/-- How a request ends without an answer of its handler. -/
inductive HttpError where
  | unauthorized
  | actor (rejection : ActorRejection)
  | exit (exit : Exit)

/-- A route's handler, on the whole database. -/
abbrev Endpoint := Program wholeDb HttpError Unit

/-- Run a handler of runs, chained rows and anchors. -/
def onRows {α : Type} (handler : Handler α) : Endpoint := do
  let _ ← embed Entry.ofRow Entry.row? HttpError.exit handler
  return ()

/-- Run a handler of records. -/
def onRecords {α : Type} (handler : RecordHandler α) : Endpoint := do
  let _ ← embed id some HttpError.exit handler
  return ()

/-- Extract the actor and run the handler of a route. -/
def withActor (state : AppState) (headers : Headers)
    (handler : String → Endpoint) : Endpoint :=
  match fromRequestParts state.defaultActor headers with
  | .ok actor => handler actor
  | .error rejection => .raise (.actor rejection)

/-- The handler of a route. -/
def dispatch (state : AppState) (headers : Headers) :
    WriteRoute → Endpoint
  | .createRun id input =>
      withActor state headers fun actor =>
        onRows (createRun state.service.runtime actor id input)
  | .event id runId input =>
      withActor state headers fun actor =>
        onRows (write state.service.runtime (.event actor id runId input))
  | .artifact id parts =>
      withActor state headers fun actor =>
        onRows (write state.service.runtime (.artifact actor id parts))
  | .toolInvocation id input =>
      withActor state headers fun actor =>
        onRows
          (write state.service.runtime (.toolInvocation actor id input))
  | .sideEffect id input =>
      withActor state headers fun actor =>
        onRows (write state.service.runtime (.sideEffect actor id input))
  | .guardrail id input =>
      withActor state headers fun actor =>
        onRows (write state.service.runtime (.guardrail actor id input))
  | .humanApproval input =>
      withActor state headers fun actor =>
        onRows (write state.service.runtime (.humanApproval actor input))
  | .biasSlice id input =>
      withActor state headers fun actor =>
        onRows (write state.service.runtime (.biasSlice actor id input))
  | .record request =>
      withActor state headers fun actor =>
        onRecords
          (record state.service.runtime state.service.signing
            state.exporter actor request)
  | .anchors global runId untilTs now id anchoredAt =>
      onRows
        (trigger state.service.runtime state.service.signing
          state.service.sink global runId untilTs now id anchoredAt)

/-- Serve a write request. -/
def handle (state : AppState) (request : HttpRequest) : Endpoint :=
  if requireBearer state.authToken request.headers then
    dispatch state request.headers request.route
  else .raise .unauthorized

/-! ## The names on the rows -/

/-- The actor of a row; an anchor has none. -/
def actorOf : Entry → Option String
  | .ofRow (.run run) => some run.actorId
  | .ofRow (.chained row) => some (actorId row)
  | .ofRow (.anchor _ _) => none
  | .ofRecord record => some record.actorId

/-- The actors of the rows an execution wrote. -/
def actorIds (events : List (Program.Event wholeDb)) : List String :=
  (written events).filterMap actorOf

/-- A row with an actor carries the one of these headers. -/
def Stamped (state : AppState) (headers : Headers) (entry : Entry) : Prop :=
  ∀ actor, actorOf entry = some actor →
    fromRequestParts state.defaultActor headers = .ok actor

section Stamps

variable {state : AppState} {headers : Headers}

/-- A route writes the rows its handler writes. -/
theorem writes_onRows {α : Type} {handler : Handler α}
    {allowed : Row → Prop} {permitted : Entry → Prop}
    (only : handler.OnlyCalls (Op.Writes allowed))
    (included : ∀ row, allowed row → permitted (.ofRow row)) :
    (onRows handler).OnlyCalls (Op.Writes permitted) :=
  Program.onlyCalls_bind (onlyCalls_embed included only) fun _ => trivial

theorem writes_onRecords {α : Type} {handler : RecordHandler α}
    {allowed permitted : Entry → Prop}
    (only : handler.OnlyCalls (Op.Writes allowed))
    (included : ∀ entry, allowed entry → permitted entry) :
    (onRecords handler).OnlyCalls (Op.Writes permitted) :=
  Program.onlyCalls_bind (onlyCalls_embed included only) fun _ => trivial

theorem writes_withActor {permitted : Entry → Prop}
    {handler : String → Endpoint}
    (only :
      ∀ actor, fromRequestParts state.defaultActor headers = .ok actor →
        (handler actor).OnlyCalls (Op.Writes permitted)) :
    (withActor state headers handler).OnlyCalls (Op.Writes permitted) := by
  unfold withActor
  cases extracted : fromRequestParts state.defaultActor headers with
  | ok actor => exact only actor extracted
  | error rejection => trivial

/-- The rows of a chained table carry the actor of the headers. -/
theorem stamps_write {actor : String} {request : WriteRequest}
    (extracted :
      fromRequestParts state.defaultActor headers = .ok actor)
    (caller : Writes.actor request = actor) :
    (onRows (write state.service.runtime request)).OnlyCalls
      (Op.Writes (Stamped state headers)) := by
  have only :
      (write state.service.runtime request).OnlyCalls
        (Op.Writes (Written (.write request))) :=
    writes_write fun row described => ⟨row, rfl, described⟩
  refine writes_onRows only ?_
  rintro _ ⟨row, rfl, described⟩ name same
  rw [actorOf, Option.some.injEq, described.actor, caller] at same
  rw [← same]
  exact extracted

/-- Whatever the route, the rows carry the actor of the headers. -/
theorem stamps_dispatch (route : WriteRoute) :
    (dispatch state headers route).OnlyCalls
      (Op.Writes (Stamped state headers)) := by
  cases route with
  | createRun id input =>
      refine writes_withActor fun actor extracted => ?_
      have only :
          (createRun state.service.runtime actor id input).OnlyCalls
            (Op.Writes (Written (.createRun actor id input))) :=
        writes_createRun fun run stamped => ⟨run, rfl, stamped⟩
      refine writes_onRows only ?_
      rintro _ ⟨run, rfl, stamped⟩ name same
      rw [actorOf, Option.some.injEq, stamped] at same
      rw [← same]
      exact extracted
  | event | artifact | toolInvocation | sideEffect | guardrail |
      humanApproval | biasSlice =>
      exact writes_withActor fun actor extracted =>
        stamps_write extracted rfl
  | record request =>
      refine writes_withActor fun actor extracted => ?_
      have only :
          (record state.service.runtime state.service.signing
              state.exporter actor request).OnlyCalls
            (Op.Writes fun entry =>
              ∃ row : Record, entry = .ofRecord row ∧ row.actorId = actor) :=
        writes_record request fun row stamped => ⟨row, rfl, stamped⟩
      refine writes_onRecords only ?_
      rintro _ ⟨row, rfl, stamped⟩ name same
      change some row.actorId = some name at same
      rw [Option.some.injEq, stamped] at same
      rw [← same]
      exact extracted
  | anchors global runId untilTs now id anchoredAt =>
      have only :
          (trigger state.service.runtime state.service.signing
              state.service.sink global runId untilTs now id
              anchoredAt).OnlyCalls
            (Op.Writes
              (Written (.trigger global runId untilTs now id anchoredAt))) :=
        writes_trigger fun anchor leaves => ⟨anchor, leaves, rfl⟩
      refine writes_onRows only ?_
      rintro _ ⟨anchor, leaves, rfl⟩ name same
      cases same

/-- A request writes rows with the actor of its headers only. -/
theorem stamps_handle (state : AppState) (request : HttpRequest) :
    (handle state request).OnlyCalls
      (Op.Writes (Stamped state request.headers)) := by
  unfold handle
  split
  · exact stamps_dispatch request.route
  · trivial

end Stamps

/-- The actor of a row that was written is the one of the headers. -/
theorem extracted_of_mem_actorIds
    {state : AppState} {request : HttpRequest}
    {events : List (Program.Event wholeDb)} {outcome : Except HttpError Unit}
    (ran : (handle state request).Executes events outcome)
    {actor : String} (member : actor ∈ actorIds events) :
    fromRequestParts state.defaultActor request.headers = .ok actor := by
  rcases List.mem_filterMap.mp member with ⟨entry, inside, here⟩
  have stamped :=
    forall_mem_written
      (Program.allowed_of_executes (stamps_handle state request) ran)
      entry inside
  exact stamped actor here

/--
Two requests stamp the same actor on their rows exactly if the header of the
actor, or the default that stands in for it, is the same; whatever they
authenticate with, and whatever else they say.
-/
theorem actor_eq_iff_header_eq
    (state : AppState) {first second : HttpRequest}
    {firstEvents secondEvents : List (Program.Event wholeDb)}
    {firstOutcome secondOutcome : Except HttpError Unit}
    (firstRan : (handle state first).Executes firstEvents firstOutcome)
    (secondRan : (handle state second).Executes secondEvents secondOutcome)
    {firstActor secondActor : String}
    (firstStamped : firstActor ∈ actorIds firstEvents)
    (secondStamped : secondActor ∈ actorIds secondEvents) :
    firstActor = secondActor ↔
      fromRequestParts state.defaultActor first.headers =
        fromRequestParts state.defaultActor second.headers := by
  rw [extracted_of_mem_actorIds firstRan firstStamped,
    extracted_of_mem_actorIds secondRan secondStamped, Except.ok.injEq]

/-- An admitted request to create a run can write it. -/
theorem executes_createRun
    {state : AppState} {peer : Option Bytes} {headers : Headers} {id : Uuid}
    {input : CreateRun} {actor : String} {startedAt : Timestamptz}
    (admitted : requireBearer state.authToken headers = true)
    (extracted : fromRequestParts state.defaultActor headers = .ok actor)
    (bound : toTimestamptz input.startedAt = some startedAt) :
    ∃ events outcome,
      (handle state ⟨peer, headers, .createRun id input⟩).Executes events
          outcome ∧
        actor ∈ actorIds events := by
  rw [← bindTimestamp_eq_ok_iff] at bound
  let run : Run :=
    { id := id
      agent := input.agent
      startedAt := startedAt
      metadata := state.service.runtime.jsonb input.metadata
      actorId := actor }
  have served :
      handle state ⟨peer, headers, .createRun id input⟩ =
        onRows (do
          let _ ← (query (.publish (.run run)) : Handler Unit)
          return run) := by
    simp only [handle, admitted, if_true, dispatch, withActor, extracted]
    rw [createRun, bound]
    rfl
  refine ⟨[⟨.publish (.ofRow (.run run)), Except.ok ()⟩], Except.ok (),
    ?_, List.mem_singleton.mpr rfl⟩
  rw [served]
  exact Program.executes_call_iff.mpr ⟨Except.ok (), [], rfl, .done ()⟩

/-! ## Two names under one token -/

/-- A ledger with a token, where the header is mandatory. -/
def guardedState : AppState where
  service := plainService
  exporter :=
    { jsonToString := fun _ => ""
      dateTimeText := fun _ => ""
      collation := fun _ _ => true }
  defaultActor := none
  authToken := some "secret"

/-- A request to create a run, with the token and a name. -/
def createRunAs (name : String) : HttpRequest where
  peer := none
  headers :=
    [("authorization", utf8 "Bearer secret"), (actorHeader, utf8 name)]
  route :=
    .createRun 7
      { agent := "agent"
        startedAt := DateTime.epoch
        metadata := Json.null }

/-- The token is presented and the actor is taken from the header. -/
theorem executes_createRunAs {name actor : String}
    (admitted :
      requireBearer guardedState.authToken (createRunAs name).headers = true)
    (extracted :
      fromRequestParts none (createRunAs name).headers = .ok actor) :
    ∃ events outcome,
      (handle guardedState (createRunAs name)).Executes events outcome ∧
        actor ∈ actorIds events := by
  have bound : ∃ stored, toTimestamptz DateTime.epoch = some stored :=
    Option.isSome_iff_exists.mp (by decide)
  rcases bound with ⟨stored, bound⟩
  exact executes_createRun admitted extracted bound

/-- Blanks around a name make no difference. -/
theorem actor_eq_of_blanks :
    ∃ firstEvents firstOutcome secondEvents secondOutcome,
      (handle guardedState (createRunAs "alice")).Executes firstEvents
          firstOutcome ∧
        (handle guardedState (createRunAs " alice ")).Executes secondEvents
            secondOutcome ∧
          ∃ firstActor ∈ actorIds firstEvents,
            ∃ secondActor ∈ actorIds secondEvents,
              firstActor = secondActor := by
  rcases
      @executes_createRunAs "alice" "alice" (by decide +kernel)
        (by decide +kernel) with
    ⟨firstEvents, firstOutcome, firstRan, first⟩
  rcases
      @executes_createRunAs " alice " "alice" (by decide +kernel)
        (by decide +kernel) with
    ⟨secondEvents, secondOutcome, secondRan, second⟩
  refine ⟨_, _, _, _, firstRan, secondRan, _, first, _, second, ?_⟩
  rw [actor_eq_iff_header_eq guardedState firstRan secondRan first second]
  decide +kernel

/-- Not every pair of requests with the same credentials has one name. -/
theorem not_actor_eq_of_credentials_eq :
    ¬ ∀ (state : AppState) (first second : HttpRequest)
        (firstEvents secondEvents : List (Program.Event wholeDb))
        (firstOutcome secondOutcome : Except HttpError Unit),
      first.credentials = second.credentials →
        (handle state first).Executes firstEvents firstOutcome →
          (handle state second).Executes secondEvents secondOutcome →
            ∀ firstActor ∈ actorIds firstEvents,
              ∀ secondActor ∈ actorIds secondEvents,
                firstActor = secondActor := by
  intro always
  rcases
      @executes_createRunAs "alice" "alice" (by decide +kernel)
        (by decide +kernel) with
    ⟨aliceEvents, aliceOutcome, aliceRan, alice⟩
  rcases
      @executes_createRunAs "bob" "bob" (by decide +kernel)
        (by decide +kernel) with
    ⟨bobEvents, bobOutcome, bobRan, bob⟩
  have same :=
    always guardedState (createRunAs "alice") (createRunAs "bob") _ _ _ _
      rfl aliceRan bobRan _ alice _ bob
  exact absurd same (by decide)

end Trackward.Ledger.Actor
