import Trackward.Gateway.Gateways

/-!
# Who binds a run

A run is bound by nothing but a gateway's call to bind it, and a gateway that
serves calls with the binding it listens with.  It listens with what it has
found out when it started, or with nothing.

Every row of the ledger and every binding of a gateway goes back to a step in
the log that has written it.
-/

namespace Trackward.Gateway.RunProvenance

open Trackward.ChainCore.Encode
open Trackward.ChainCore.JsonValue
open Trackward.Gateway.Boot
open Trackward.Gateway.Calls
open Trackward.Gateway.Deployment
open Trackward.Gateway.Gateways
open Trackward.Gateway.Handlers
open Trackward.Gateway.Retrieval
open Trackward.Ledger.Actor
open Trackward.Ledger.Answers
open Trackward.Ledger.Models (Effect Fault)
open Trackward.Ledger.Records
open Trackward.Ledger.VersionAnswers
open Trackward.Lib
open Trackward.Lib.Logs hiding Entry
open Trackward.Lib.Octets
open Trackward.Lib.Programs
open Trackward.Lib.Programs.Program
  (Leaves Tracks tracks_bind tracks_of_translate)
open Trackward.Lib.Substitution

variable {Name Client : Type} {fleet : Fleet Name}

/-- A step with its answer. -/
abbrev FleetEvent (Name : Type) := Program.Event (fleetHost Name)

/-- The log of the gateways and their ledger. -/
abbrev FleetLog (Client Name : Type) :=
  List (Logs.Entry (fleetHost Name) Client (FleetRequest Name) DeployedChoice)

/-- A run of the gateways and their ledger with its log. -/
abbrev FleetRun (Client : Type) [DecidableEq Client] [DecidableEq Name]
    (fleet : Fleet Name) (log : FleetLog Client Name)
    (world : FleetWorld Client Name) : Prop :=
  Logged (gatewaysHost Client Name)
    (fun request => substitute (carryOut fleet) (serveFleet fleet request))
    FleetState.isFresh log world

/-- The statement writes this entry. -/
def Writes (op : wholeDb.Op) (entry : Entry) : Prop :=
  op = .insert entry ∨ op = .publish entry

theorem Writes.allowed {op : wholeDb.Op} {entry : Entry}
    (writes : Writes op entry) {allowed : Entry → Prop}
    (only : op.Writes allowed) : allowed entry := by
  rcases writes with rfl | rfl
  · exact only
  · exact only

/-! ## What a call does -/

/-- A step of a request to the ledger, with its statements. -/
def OnLedger (allowed : wholeDb.Op → Prop) : FleetOp Name → Prop
  | .deliver => True
  | .statement op => allowed op
  | .reply => True
  | _ => False

section Requests

variable {β γ : Type} {allowed : wholeDb.Op → Prop}

theorem onlyCalls_onDatabase {program : Program wholeDb HttpError β}
    (only : program.OnlyCalls allowed) :
    (onDatabase program :
      Program (fleetHost Name) Empty _).OnlyCalls (OnLedger allowed) := by
  induction program with
  | done value => trivial
  | raise error => trivial
  | call op next induction =>
      exact ⟨only.1, fun answer => induction answer (only.2 answer)⟩

/-- A request to the ledger makes the statements of its handler. -/
theorem onlyCalls_send
    {handler : Arrival → Option (Program wholeDb HttpError β)}
    {unreadable : String} {read : Except HttpError β → Except String γ}
    (only :
      ∀ arrival program, handler arrival = some program →
        program.OnlyCalls allowed) :
    (send handler unreadable read :
      Program (fleetHost Name) Empty _).OnlyCalls (OnLedger allowed) := by
  refine ⟨trivial, fun delivered => ?_⟩
  rcases delivered with text | arrival
  · trivial
  · change (served unreadable read (handler arrival)).OnlyCalls _
    cases handles : handler arrival with
    | none => trivial
    | some program =>
        refine
          onlyCalls_splice
            (onlyCalls_onDatabase (only arrival program handles))
            fun ending => ⟨trivial, fun reply => ?_⟩
        cases reply with
        | error text => trivial
        | ok sent => trivial

end Requests

theorem unbinding_rowAnswer {α : Type} (row : α → Ledger.Models.Row)
    (handler : Ledger.Models.Handler α) :
    (rowAnswer row handler).OnlyCalls (Transactions.Op.Writes Unbinding) := by
  refine Program.onlyCalls_bind ?_ fun _ => trivial
  have any : handler.OnlyCalls (Transactions.Op.Writes fun _ => True) :=
    Program.onlyCalls_of_always (fun op => by cases op <;> trivial) handler
  refine Transactions.onlyCalls_embed ?_ any
  rintro own _ bound ⟨⟩

/-- A handler with a caller writes what it writes with each caller. -/
theorem onlyCalls_withCaller {state : AppState} {headers : Headers}
    {handler : String → Answering} {allowed : wholeDb.Op → Prop}
    (only : ∀ actor, (handler actor).OnlyCalls allowed) :
    (withCaller state headers handler).OnlyCalls allowed := by
  unfold withCaller
  cases fromRequestParts state.defaultActor headers with
  | ok actor => exact only actor
  | error rejection => trivial

/-- The routes of runs and chained rows bind no run. -/
theorem unbinding_answerTo {state : AppState} {headers : Headers}
    {route : WriteRoute} {program : Answering}
    (notRecord : ∀ request, route ≠ .record request)
    (answers : answerTo state headers route = some program) :
    program.OnlyCalls (Transactions.Op.Writes Unbinding) := by
  rcases Option.map_eq_some_iff.mp answers with ⟨routed, found, rfl⟩
  have only : routed.OnlyCalls (Transactions.Op.Writes Unbinding) := by
    cases route with
    | createRun | event | artifact | toolInvocation | sideEffect | guardrail
    | humanApproval | biasSlice =>
        cases found
        exact onlyCalls_withCaller fun _ => unbinding_rowAnswer _ _
    | record request => exact absurd rfl (notRecord request)
    | anchors => cases found
  split
  · exact only
  · trivial

/-- A write of the gateway goes to a binding, or to another route. -/
theorem route_of_call {wire : Wire} {arrival : Arrival} {call : LedgerCall}
    {route : WriteRoute} (routed : routeOf wire arrival call = some route) :
    (∃ runId binding,
        call = .bindRun runId binding ∧
          route =
            .record
              (.binding runId
                ⟨binding.promptVersionId, binding.policyVersionId,
                  binding.evalResultId⟩)) ∨
      ∀ request, route ≠ .record request := by
  cases call with
  | createRun agent metadata | appendEvent runId kind metadata
  | recordSideEffect runId invocation kind target status metadata =>
      rcases Option.bind_eq_some_iff.mp routed with ⟨sent, _, ⟨⟩⟩
      exact Or.inr fun request absurdity => by cases absurdity
  | recordToolInvocation runId tool input output status code =>
      rcases Option.bind_eq_some_iff.mp routed with ⟨sent, _, rest⟩
      rcases Option.bind_eq_some_iff.mp rest with ⟨sent', _, ⟨⟩⟩
      exact Or.inr fun request absurdity => by cases absurdity
  | bindRun runId binding =>
      cases routed
      exact Or.inl ⟨runId, binding, rfl, rfl⟩
  | recordHumanApproval id runId tool decision =>
      cases routed
      exact Or.inr fun request absurdity => by cases absurdity

/-- What a run is bound to. -/
def bindingOf (row : RunVersionBinding) : ResolvedBinding where
  promptVersionId := row.promptVersionId
  policyVersionId := row.policyVersionId
  evalResultId := row.evalResultId

/-- A run is bound by nothing but the call to bind it. -/
def BoundBy (call : LedgerCall) (entry : Entry) : Prop :=
  ∀ row, entry = .ofRecord (.binding row) →
    call = .bindRun row.runId (bindingOf row)

theorem boundBy_handlerOf {setup : Setup} {arrival : Arrival}
    {call : LedgerCall} {program : Answering}
    (handles : handlerOf setup arrival call = some program) :
    program.OnlyCalls (Transactions.Op.Writes (BoundBy call)) := by
  rcases Option.bind_eq_some_iff.mp handles with ⟨route, routed, answers⟩
  rcases route_of_call routed with
    ⟨runId, binding, rfl, rfl⟩ | notRecord
  · cases answers
    split
    · refine onlyCalls_withCaller fun actor => ?_
      refine Program.onlyCalls_bind ?_ fun _ => trivial
      refine Transactions.onlyCalls_embed (fun _ here => here) ?_
      apply onlyCalls_select_bind trivial
      intro known
      split
      · apply onlyCalls_insertRecord
        rintro row ⟨⟩
        rfl
      · trivial
    · trivial
  · refine (unbinding_answerTo notRecord answers).mono fun op writes => ?_
    cases op with
    | insert entry | publish entry =>
        exact fun row same => absurd same (writes row)
    | begin | lock | select | commit | emit => trivial

/-- The statement is no part of a transaction. -/
def Autocommitted : wholeDb.Op → Prop
  | .select => True
  | .publish (.ofRecord (.promptVersion _)) => True
  | .publish (.ofRecord (.policyVersion _)) => True
  | _ => False

theorem autocommitted_asking (name : Name) (call : RegistryCall) :
    (asking fleet name call).OnlyCalls (OnLedger Autocommitted) := by
  cases call with
  | registerPromptVersion | registerPolicyVersion =>
      refine onlyCalls_send fun arrival program handles => ?_
      cases handles
      exact onlyCalls_registering trivial fun _ => trivial
  | latestEvalResult =>
      refine onlyCalls_send fun arrival program handles => ?_
      cases handles
      exact onlyCalls_listing trivial

/-- A call binds a run to this. -/
inductive BindsRun : Call Name → RunVersionBinding → Prop where
  | proxy (name : Name) (row : RunVersionBinding) :
      BindsRun
        (.proxy name
          (.gateway (.ledger (.bindRun row.runId (bindingOf row)))))
        row
  | other {op : wholeDb.Op} {row : RunVersionBinding}
      (writes : Writes op (.ofRecord (.binding row))) :
      BindsRun (.statement op) row

/-- The steps of a call. -/
def StepOf (call : Call Name) : FleetOp Name → Prop
  | .statement op =>
      ∀ row, Writes op (.ofRecord (.binding row)) → BindsRun call row
  | .binding name => call = .binding name
  | .listen name binding => call = .listen name binding
  | _ => True

/-- The steps of a request whose statements bind a run only for the call. -/
theorem stepOf_of_onLedger {call : Call Name} {allowed : Entry → Prop}
    (binds :
      ∀ row, allowed (.ofRecord (.binding row)) → BindsRun call row)
    (op : FleetOp Name)
    (step : OnLedger (Transactions.Op.Writes allowed) op) :
    StepOf call op := by
  cases op with
  | statement op => exact fun row writes => binds row (writes.allowed step)
  | deliver | reply => trivial
  | gateway | search | binding | listen => exact step.elim

theorem stepOf_carryOut (call : Call Name) :
    (carryOut fleet call).OnlyCalls (StepOf call) := by
  cases call with
  | proxy name op =>
      cases op with
      | gateway op =>
          cases op with
          | ledger call =>
              refine (onlyCalls_send fun arrival program handles =>
                boundBy_handlerOf handles).mono (stepOf_of_onLedger ?_)
              intro row bound
              rw [bound row rfl]
              exact .proxy name row
          | _ => exact ⟨trivial, fun _ => trivial⟩
      | upload upload =>
          refine (onlyCalls_send fun arrival program handles =>
            unbinding_answerTo ?_ handles).mono (stepOf_of_onLedger ?_)
          · intro request absurdity
            cases absurdity
          · exact fun row unbinding => absurd rfl (unbinding row)
      | search query => exact ⟨trivial, fun _ => trivial⟩
  | registry name call =>
      refine (autocommitted_asking name call).mono fun op step => ?_
      cases op with
      | statement op =>
          rintro row (rfl | rfl)
          · exact step.elim
          · exact step.elim
      | deliver | reply => trivial
      | gateway | search | binding | listen => exact step.elim
  | binding name => exact ⟨rfl, fun _ => trivial⟩
  | listen name binding => exact ⟨rfl, fun _ => trivial⟩
  | statement op => exact ⟨fun row writes => .other writes, fun _ => trivial⟩

/-- Every call takes a step. -/
theorem opens_carryOut (call : (calls Name).Op) :
    ∃ lower next, carryOut fleet call = .call lower next := by
  cases call with
  | proxy name op =>
      cases op with
      | gateway op => cases op <;> exact ⟨_, _, rfl⟩
      | upload | search => exact ⟨_, _, rfl⟩
  | registry name call => cases call <;> exact ⟨_, _, rfl⟩
  | binding | listen | statement => exact ⟨_, _, rfl⟩

/-! ## What a session calls -/

/-- A call of the gateways with its answer. -/
abbrev CallEvent (Name : Type) := Program.Event (calls Name)

/-- The gateway has found out a binding, or starts with none. -/
def FoundOut (fleet : Fleet Name) (past : List (CallEvent Name)) (name : Name)
    (binding : ResolvedBinding) : Prop :=
  binding = unbound ∨
    ∃ events : List RegistryEvent,
      Answered fleet.sha256 (fleet.gateways name).registry events binding ∧
        ∀ event ∈ events, ⟨.registry name event.op, event.answer⟩ ∈ past

/-- What a call says of the calls and answers before it. -/
def Suits (fleet : Fleet Name) (past : List (CallEvent Name)) :
    Call Name → Prop
  | .proxy name (.gateway (.ledger (.bindRun _ binding))) =>
      binding.isEmpty = false ∧ ⟨.binding name, some binding⟩ ∈ past
  | .listen name binding =>
      FoundOut fleet past name binding ∧
        ∀ event ∈ past, ∃ call, event.op = .registry name call
  | .statement op => op.Writes Unbinding
  | _ => True

/-- A gateway with a binding binds runs to it, if it is one. -/
def Stamps (binding : ResolvedBinding) : Op → Prop
  | .ledger (.bindRun _ found) => found = binding ∧ binding.isEmpty = false
  | _ => True

theorem stamps_resolveOrMintRun {service : Service}
    {runIdHeader : Option String} {origin : String} :
    (resolveOrMintRun service runIdHeader origin).OnlyCalls
      (Stamps service.binding) := by
  unfold resolveOrMintRun
  cases extractRunId service.runtime runIdHeader with
  | some id => trivial
  | none =>
      refine Program.onlyCalls_bind (onlyCalls_ledger trivial) fun runId => ?_
      cases empty : service.binding.isEmpty with
      | true => trivial
      | false =>
          exact
            Program.onlyCalls_bind (onlyCalls_perform ⟨rfl, empty⟩) fun _ =>
              trivial

theorem stamps_serve {service : Service} (request : Request) :
    (serve service request).OnlyCalls (Stamps service.binding) := by
  cases request with
  | tool tool runIdHeader input =>
      change (proxy service tool runIdHeader input).OnlyCalls _
      unfold proxy
      split
      · trivial
      · refine Program.onlyCalls_bind stamps_resolveOrMintRun
          fun resolved => ?_
        refine Program.onlyCalls_bind (onlyCalls_ledger trivial) fun _ => ?_
        refine Program.onlyCalls_bind (onlyCalls_forward trivial)
          fun answer => ?_
        refine Program.onlyCalls_bind (onlyCalls_ledger trivial) fun _ => ?_
        refine Program.onlyCalls_bind (onlyCalls_perform trivial)
          fun recorded => ?_
        refine Program.onlyCalls_bind ?_ fun _ => trivial
        split
        · exact onlyCalls_recordConfirmations fun _ => trivial
        · trivial
  | approval runIdHeader body =>
      refine onlyCalls_approval stamps_resolveOrMintRun fun op about => ?_
      cases op with
      | ledger call =>
          cases call with
          | bindRun => exact about.elim
          | _ => trivial
      | _ => trivial
  | decide id body =>
      exact onlyCalls_decide trivial (fun _ => trivial) fun _ _ => trivial

/-- A proxy with a binding does so, too. -/
def StampsBy (binding : ResolvedBinding) : ProxyOp → Prop
  | .gateway op => Stamps binding op
  | _ => True

theorem stampsBy_lift {binding : ResolvedBinding} {α : Type}
    {handler : Handler α} (only : handler.OnlyCalls (Stamps binding)) :
    (lift handler).OnlyCalls (StampsBy binding) := by
  have same (op : Op) (stamps : Stamps binding op) :
      StampsBy binding (.gateway op) := stamps
  exact Program.onlyCalls_translate same only

theorem stampsBy_record {binding : ResolvedBinding} (runId : Uuid)
    (kind : String) (body : Json) :
    (record runId kind body).OnlyCalls (StampsBy binding) :=
  stampsBy_lift (onlyCalls_ledger trivial)

theorem stampsBy_uploadDocs {binding : ResolvedBinding} {proxies : Proxies}
    {runId : Uuid} (index : Nat) (docs : List Json) :
    (uploadDocs proxies runId index docs).OnlyCalls (StampsBy binding) := by
  induction docs generalizing index with
  | nil => trivial
  | cons doc docs induction =>
      refine ⟨trivial, fun answer => ?_⟩
      rcases answer with text | id
      · trivial
      · exact Program.onlyCalls_bind (induction _) fun _ => trivial

theorem stampsBy_recordDocs {binding : ResolvedBinding} {proxies : Proxies}
    (runId : Uuid) (status : UInt16) (body : Bytes) :
    (recordDocs proxies runId status body).OnlyCalls (StampsBy binding) := by
  unfold recordDocs
  cases proxies.service.runtime.jsonFromSlice body with
  | none => trivial
  | some result =>
      refine Program.onlyCalls_bind (stampsBy_uploadDocs _ _) fun _ => ?_
      exact Program.onlyCalls_bind (stampsBy_record _ _ _) fun _ => trivial

theorem stampsBy_retrieve {proxies : Proxies} (runIdHeader : Option String)
    (input : Json) :
    (retrieve proxies runIdHeader input).OnlyCalls
      (StampsBy proxies.service.binding) := by
  unfold retrieve
  cases proxies.retrievalBackend with
  | none => trivial
  | some backendUrl =>
      refine Program.onlyCalls_bind (stampsBy_lift stamps_resolveOrMintRun)
        fun resolved => ?_
      refine Program.onlyCalls_bind (stampsBy_record _ _ _) fun _ => ?_
      refine Program.onlyCalls_bind ?_ fun answer => ?_
      · refine ⟨trivial, fun answer => ?_⟩
        rcases answer with text | ⟨status, text | body⟩
        · trivial
        · trivial
        · trivial
      · rcases answer with ⟨status, body⟩
        dsimp only
        split
        · exact stampsBy_recordDocs _ _ _
        · exact
            Program.onlyCalls_bind (stampsBy_record _ _ _) fun _ => trivial

/-- A gateway starts with what it has found out. -/
theorem tracks_start (name : Name) :
    (serveFleet fleet (.start name)).Tracks (Suits fleet) (fun _ _ => True)
      [] := by
  refine tracks_bind (Program.Tracks.weaken ?_
    (tracks_of_translate
      (Program.onlyCalls_of_always (fun _ => trivial) _) ?_))
  · rintro past outcome ⟨_, rfl, kinds, ran⟩
    cases outcome with
    | error error => trivial
    | ok binding =>
        have asking (event : CallEvent Name) (member : event ∈ past) :
            ∃ call, event.op = .registry name call := by
          rcases kinds event member with ⟨call, _, same⟩
          exact ⟨call, same⟩
        refine ⟨⟨?_, asking⟩, fun _ => trivial⟩
        rcases Program.executes_of_translate ran with
          ⟨asked, booted, answered⟩
        rcases answered_of_bootBinding booted with found | none
        · refine Or.inr ⟨asked, found, fun event member => ?_⟩
          rcases answered event member with ⟨reply, inside, rfl⟩
          exact inside
        · exact Or.inl none
  · intro events call _ _
    trivial

/-- A gateway that listens serves with its binding. -/
theorem tracks_bound {name : Name}
    {handler : ResolvedBinding → ProxyHandler Response}
    (only :
      ∀ binding, (handler binding).OnlyCalls (StampsBy binding)) :
    (bound name handler).Tracks (Suits fleet) (fun _ _ => True) [] := by
  refine ⟨trivial, fun answer => ?_⟩
  rcases answer with _ | binding
  · trivial
  refine tracks_bind (Program.Tracks.weaken ?_
    (tracks_of_translate (only binding) ?_))
  · intro past outcome _
    cases outcome <;> trivial
  · intro events op _ stamps
    cases op with
    | gateway op =>
        cases op with
        | ledger call =>
            cases call with
            | bindRun runId found =>
                rcases stamps with ⟨rfl, some⟩
                exact ⟨some, List.mem_append_left _ List.mem_cons_self⟩
            | _ => trivial
        | _ => trivial
    | upload | search => trivial

theorem tracks_serveFleet (request : FleetRequest Name) :
    (serveFleet fleet request).Tracks (Suits fleet) (fun _ _ => True) [] := by
  cases request with
  | start name => exact tracks_start name
  | serve name request =>
      refine tracks_bound fun binding => ?_
      have stamps := @stamps_serve ((fleet.gateways name).service binding)
      exact stampsBy_lift (stamps request)
  | retrieve name runIdHeader input =>
      refine tracks_bound fun binding => ?_
      have stamps := @stampsBy_retrieve ((fleet.gateways name).proxies binding)
      exact stamps runIdHeader input
  | other program only =>
      refine tracks_bind (Program.Tracks.weaken ?_
        (tracks_of_translate only ?_))
      · intro past outcome _
        cases outcome <;> trivial
      · exact fun _ _ _ writes => writes

/-! ## Steps -/

variable [DecidableEq Client] [DecidableEq Name]

section Steps

variable {before after : FleetState Client Name} {client : Client}
variable {choice : DeployedChoice} {op : FleetOp Name} {answer : op.Answer}

/-- What a step does to the ledger. -/
inductive LedgerStep (client : Client)
    (before : Transactions.State Client Int64 Entry Effect) :
    (op : FleetOp Name) → op.Answer →
      Transactions.State Client Int64 Entry Effect → Prop where
  | other (op : FleetOp Name) (answer : op.Answer) :
      LedgerStep client before op answer before
  | released (answer : Except String Unit) :
      LedgerStep client before .reply answer (before.release client)
  | statement {choice : Transactions.Choice Fault} {op : wholeDb.Op}
      {answer : wholeDb.Answer op}
      {after : Transactions.State Client Int64 Entry Effect}
      (answered :
        (Transactions.host Ledger.Schema.accepts).respond client choice op
            before =
          some (answer, after)) :
      LedgerStep client before (.statement op) answer after

/-- What a step does to the bindings: a gateway listens with another one. -/
def BindingsStep (op : FleetOp Name)
    (before after : Name → Option ResolvedBinding) : Prop :=
  after = before ∨
    ∃ name binding,
      op = .listen name binding ∧
        after = Function.update before name (some binding)

theorem steps_of_respond
    (responded : before.respond client choice op = some (answer, after)) :
    LedgerStep client before.ledger op answer after.ledger ∧
      BindingsStep op before.bindings after.bindings := by
  cases op with
  | gateway name op =>
      cases choice with
      | gateway choice =>
          cases own : isWrite op with
          | true => simp [FleetState.respond, own] at responded
          | false =>
              simp only [FleetState.respond, own, Bool.false_eq_true,
                if_false] at responded
              rcases Option.map_eq_some_iff.mp responded with
                ⟨found, _, same⟩
              cases same
              exact ⟨.other _ _, Or.inl rfl⟩
      | arrive | statement | proceed | fail => cases responded
  | search query =>
      cases choice with
      | gateway choice =>
          cases choice with
          | respond response =>
              cases responded
              exact ⟨.other _ _, Or.inl rfl⟩
          | _ => cases responded
      | arrive | statement | proceed | fail => cases responded
  | deliver =>
      cases choice with
      | arrive | fail =>
          cases responded
          exact ⟨.other _ _, Or.inl rfl⟩
      | gateway choice => cases choice <;> cases responded
      | statement | proceed => cases responded
  | statement op =>
      cases choice with
      | statement choice =>
          rcases Option.map_eq_some_iff.mp responded with
            ⟨⟨answer, ledger⟩, answered, same⟩
          cases same
          exact ⟨.statement answered, Or.inl rfl⟩
      | gateway choice => cases choice <;> cases responded
      | arrive | proceed | fail => cases responded
  | reply =>
      cases choice with
      | proceed | fail =>
          cases responded
          exact ⟨.released _, Or.inl rfl⟩
      | gateway choice => cases choice <;> cases responded
      | arrive | statement => cases responded
  | binding name =>
      cases choice with
      | proceed =>
          cases responded
          exact ⟨.other _ _, Or.inl rfl⟩
      | gateway choice => cases choice <;> cases responded
      | arrive | statement | fail => cases responded
  | listen name binding =>
      cases choice with
      | proceed =>
          cases responded
          exact ⟨.other _ _, Or.inr ⟨name, binding, rfl, rfl⟩⟩
      | gateway choice => cases choice <;> cases responded
      | arrive | statement | fail => cases responded

/-- Where the rows of the ledger come from in one step. -/
structure RowsFrom (client : Client) (op : FleetOp Name)
    (before after : Transactions.State Client Int64 Entry Effect) : Prop where
  grown : before.committed <+: after.committed
  committed :
    ∀ entry ∈ after.committed,
      entry ∈ before.committed ∨ entry ∈ before.pending client ∨
        op = .statement (.publish entry)
  pending :
    ∀ other, ∀ entry ∈ after.pending other,
      entry ∈ before.pending other ∨
        other = client ∧ op = .statement (.insert entry)

omit [DecidableEq Client] [DecidableEq Name] in
/-- A step that leaves the rows alone. -/
theorem RowsFrom.of_eq {client : Client} {op : FleetOp Name}
    {before after : Transactions.State Client Int64 Entry Effect}
    (committed : after.committed = before.committed)
    (pending : after.pending = before.pending) :
    RowsFrom client op before after where
  grown := by rw [committed]
  committed := fun _ member => Or.inl (committed ▸ member)
  pending := fun _ _ member => Or.inl (pending ▸ member)

omit [DecidableEq Name] in
theorem RowsFrom.release (client : Client) (op : FleetOp Name)
    (state : Transactions.State Client Int64 Entry Effect) (leaver : Client) :
    RowsFrom client op state (state.release leaver) where
  grown := List.prefix_rfl
  committed := fun _ member => Or.inl member
  pending := by
    intro other entry member
    change entry ∈ Function.update state.pending leaver [] other at member
    by_cases same : other = leaver
    · subst same
      rw [Function.update_self] at member
      cases member
    · rw [Function.update_of_ne same] at member
      exact Or.inl member

omit [DecidableEq Name] in
theorem LedgerStep.rowsFrom
    {before after : Transactions.State Client Int64 Entry Effect}
    (step : LedgerStep client before op answer after) :
    RowsFrom client op before after := by
  cases step with
  | other => exact .of_eq rfl rfl
  | released => exact .release _ _ _ _
  | statement answered =>
      rcases Transactions.respond_cases answered with
        ⟨fault, rfl, rfl, rfl⟩ | ⟨now, reply, rfl, rfl, succeeded⟩
      · exact .of_eq rfl rfl
      · cases Transactions.State.succeeds_of_succeed succeeded with
        | begin | lock | select | emit => exact .of_eq rfl rfl
        | insert row accepted =>
            refine
              ⟨List.prefix_rfl, fun _ member => Or.inl member,
                fun other entry member => ?_⟩
            change
              entry ∈
                Function.update before.pending client
                  (before.pending client ++ [row]) other
              at member
            by_cases own : other = client
            · subst own
              rw [Function.update_self] at member
              rcases List.mem_append.mp member with old | new
              · exact Or.inl old
              · rw [List.mem_singleton.mp new]
                exact Or.inr ⟨rfl, rfl⟩
            · rw [Function.update_of_ne own] at member
              exact Or.inl member
        | commit accepted =>
            refine
              ⟨List.prefix_append _ _, fun entry member => ?_,
                (RowsFrom.release client
                  (.statement .commit : FleetOp Name) before client).pending⟩
            rcases List.mem_append.mp member with old | new
            · exact Or.inl old
            · exact Or.inr (Or.inl new)
        | publish row accepted =>
            refine
              ⟨List.prefix_append _ _, fun entry member => ?_,
                fun _ _ member => Or.inl member⟩
            rcases List.mem_append.mp member with old | new
            · exact Or.inl old
            · rw [List.mem_singleton.mp new]
              exact Or.inr (Or.inr rfl)

end Steps

/-! ## What a log says of a world -/

/-- Somebody was answered like this. -/
def Happened (log : FleetLog Client Name) (kind : FleetEvent Name → Prop) :
    Prop :=
  ∃ client choice event, .called client choice event ∈ log ∧ kind event

omit [DecidableEq Client] [DecidableEq Name] in
theorem Happened.more {log : FleetLog Client Name}
    {kind : FleetEvent Name → Prop} (happened : Happened log kind)
    (rest : FleetLog Client Name) : Happened (log ++ rest) kind := by
  rcases happened with ⟨client, choice, event, member, holds⟩
  exact ⟨client, choice, event, List.mem_append_left _ member, holds⟩

/-- The statement that writes an entry. -/
def WriteOf (entry : Entry) (event : FleetEvent Name) : Prop :=
  ∃ op answer, event = ⟨.statement op, answer⟩ ∧ Writes op entry

/-- The session has inserted an entry into its transaction. -/
def InsertedBy (events : List (FleetEvent Name)) (entry : Entry) : Prop :=
  ∃ answer, ⟨.statement (.insert entry), answer⟩ ∈ events

/-- Rows and bindings go back to entries of the log. -/
structure Explained (log : FleetLog Client Name)
    (world : FleetWorld Client Name) : Prop where
  idle :
    ∀ client, world.sessions client = none →
      world.shared.ledger.pending client = []
  pending :
    ∀ client, ∀ entry ∈ world.shared.ledger.pending client,
      InsertedBy (own client log) entry
  committed :
    ∀ entry ∈ world.shared.ledger.committed, Happened log (WriteOf entry)
  bindings :
    ∀ name binding, world.shared.bindings name = some binding →
      Happened log fun event => event = ⟨.listen name binding, ()⟩

theorem Explained.call {log : FleetLog Client Name}
    {world : FleetWorld Client Name} (explained : Explained log world)
    {client : Client} {request : FleetRequest Name} {calls : Nat}
    {op : FleetOp Name}
    {next : op.Answer → Program (fleetHost Name) Error (Option Response)}
    (present : world.sessions client = some ⟨request, calls, .call op next⟩)
    {choice : DeployedChoice} {answer : op.Answer}
    {shared : FleetState Client Name}
    (responded :
      world.shared.respond client choice op = some (answer, shared)) :
    Explained (log ++ [.called client choice ⟨op, answer⟩])
      ⟨shared,
        Function.update world.sessions client
          (some ⟨request, calls + 1, next answer⟩)⟩ := by
  rcases steps_of_respond responded with ⟨step, bindings⟩
  have rows := step.rowsFrom
  have last {kind : FleetEvent Name → Prop} (holds : kind ⟨op, answer⟩) :
      Happened (log ++ [.called client choice ⟨op, answer⟩]) kind :=
    ⟨client, choice, _, List.mem_append_right _ List.mem_cons_self, holds⟩
  have mine :
      own client (log ++ [.called client choice ⟨op, answer⟩]) =
        own client log ++ [⟨op, answer⟩] := by
    rw [own_concat, keep, if_pos rfl]
  constructor
  · intro other idle
    have different : other ≠ client := by
      rintro rfl
      simp at idle
    simp only [Function.update_of_ne different] at idle
    rw [List.eq_nil_iff_forall_not_mem]
    intro entry member
    rcases rows.pending other entry member with before | ⟨same, _⟩
    · rw [explained.idle other idle] at before
      cases before
    · exact different same
  · intro other entry member
    rcases rows.pending other entry member with before | ⟨rfl, rfl⟩
    · rcases explained.pending other entry before with ⟨answer', inside⟩
      refine ⟨answer', ?_⟩
      rw [own_concat, keep]
      split_ifs
      · exact List.mem_append_left _ inside
      · exact inside
    · rw [mine]
      exact ⟨answer, List.mem_append_right _ List.mem_cons_self⟩
  · intro entry member
    rcases rows.committed entry member with before | waiting | rfl
    · exact (explained.committed entry before).more _
    · rcases explained.pending client entry waiting with ⟨answer', inside⟩
      rcases exists_called_of_mem_own inside with ⟨choice', called⟩
      have inserted : Happened log (WriteOf entry) :=
        ⟨client, choice', _, called, _, _, rfl, Or.inl rfl⟩
      exact inserted.more _
    · exact last ⟨_, _, rfl, Or.inr rfl⟩
  · intro name binding here
    change shared.bindings name = some binding at here
    rcases bindings with same | ⟨name', binding', rfl, same⟩
    · rw [same] at here
      exact (explained.bindings name binding here).more _
    · rw [same] at here
      by_cases own : name = name'
      · subst own
        rw [Function.update_self] at here
        cases here
        exact last rfl
      · rw [Function.update_of_ne own] at here
        exact (explained.bindings name binding here).more _

theorem explained_of_run {log : FleetLog Client Name}
    {world : FleetWorld Client Name} (run : FleetRun Client fleet log world) :
    Explained log world := by
  induction run with
  | @start world isInitial =>
      rcases isInitial.1 with ⟨_, unbound, rest⟩
      constructor
      · exact fun client _ => rest.2.1 client
      · intro client entry member
        rw [rest.2.1 client] at member
        cases member
      · intro entry member
        rw [show world.shared.ledger.committed = [] from rest.1] at member
        cases member
      · intro name binding here
        rw [unbound name] at here
        cases here
  | @arrive log world run newcomer request absent explained =>
      constructor
      · intro client idle
        by_cases same : client = newcomer
        · subst same
          exact explained.idle client absent
        · simp only [Function.update_of_ne same] at idle
          exact explained.idle client idle
      · intro client entry member
        by_cases same : newcomer = client
        · subst same
          rw [explained.idle newcomer absent] at member
          cases member
        · rw [own_concat, keep, if_neg same]
          exact explained.pending client entry member
      · exact fun entry member => (explained.committed entry member).more _
      · exact fun name binding here =>
          (explained.bindings name binding here).more _
  | @call log world run client request calls op next present choice answer
      shared responded explained =>
      exact explained.call present responded
  | @depart log world run leaver session present explained =>
      constructor
      · intro client idle
        by_cases same : client = leaver
        · subst same
          simp [gatewaysHost, Transactions.State.release]
        · simp only [Function.update_of_ne same] at idle
          simpa [gatewaysHost, Transactions.State.release, same] using
            explained.idle client idle
      · intro client entry member
        by_cases same : client = leaver
        · subst same
          simp [gatewaysHost, Transactions.State.release] at member
        · simp only [gatewaysHost, Transactions.State.release,
            Function.update_of_ne same] at member
          rw [own_concat, keep]
          exact explained.pending client entry member
      · exact fun entry member => (explained.committed entry member).more _
      · exact fun name binding here =>
          (explained.bindings name binding here).more _

end Trackward.Gateway.RunProvenance
