import Trackward.Ledger.Actor
import Trackward.Ledger.Recompute

/-!
# What the write routes answer

A write route answers with the row it has written.  When it answers, this row
and nothing else was committed, and its columns are those the request fills;
when it ends in an error, nothing was committed.

The routes that look for an existing row first, and the one that anchors, are
left out.
-/

namespace Trackward.Ledger.Answers

open Trackward.ChainCore.Encode
open Trackward.Ledger.Actor
open Trackward.Ledger.Anchoring
open Trackward.Ledger.Chain
open Trackward.Ledger.Models
open Trackward.Ledger.Recompute
open Trackward.Ledger.Records
open Trackward.Ledger.Routes
open Trackward.Ledger.Timestamps
open Trackward.Ledger.WriteOutcomes
open Trackward.Lib.Outcomes
open Trackward.Lib.Programs
open Trackward.Lib.Transactions

/-! ## Handlers with their rows -/

/-- A handler of the ledger and the row it answers with. -/
abbrev Answering := Program wholeDb HttpError Entry

/-- A handler of runs and chained rows. -/
def rowAnswer {α : Type} (row : α → Row) (handler : Handler α) :
    Answering := do
  let found ← embed Entry.ofRow Entry.row? HttpError.exit handler
  return .ofRow (row found)

/-- A handler of records. -/
def recordAnswer (handler : RecordHandler Record) : Answering := do
  let found ← embed id some HttpError.exit handler
  return .ofRecord found

/-- The write to a chained table that a route asks for, by its caller. -/
def writeOf : WriteRoute → Option (String → WriteRequest)
  | .event id runId input => some fun actor => .event actor id runId input
  | .artifact id parts => some fun actor => .artifact actor id parts
  | .toolInvocation id input =>
      some fun actor => .toolInvocation actor id input
  | .sideEffect id input => some fun actor => .sideEffect actor id input
  | .guardrail id input => some fun actor => .guardrail actor id input
  | .humanApproval input => some fun actor => .humanApproval actor input
  | .biasSlice id input => some fun actor => .biasSlice actor id input
  | _ => none

/-- Find the caller and run the handler of a route. -/
def withCaller (state : AppState) (headers : Headers)
    (handler : String → Answering) : Answering :=
  match fromRequestParts state.defaultActor headers with
  | .ok actor => handler actor
  | .error rejection => .raise (.actor rejection)

/-- The handler of a route that answers with a row. -/
def answer (state : AppState) (headers : Headers) :
    WriteRoute → Option Answering
  | .createRun id input =>
      some
        (withCaller state headers fun actor =>
          rowAnswer .run (createRun state.service.runtime actor id input))
  | .record request =>
      some
        (withCaller state headers fun actor =>
          recordAnswer
            (record state.service.runtime state.service.signing
              state.exporter actor request))
  | route =>
      (writeOf route).map fun request =>
        withCaller state headers fun actor =>
          rowAnswer .chained (write state.service.runtime (request actor))

/-- Admit a request and serve its route. -/
def answerTo (state : AppState) (headers : Headers) (route : WriteRoute) :
    Option Answering :=
  (answer state headers route).map fun program =>
    if requireBearer state.authToken headers then program
    else .raise .unauthorized

/-! ## The router -/

theorem rowAnswer_forget {α : Type} (row : α → Row) (handler : Handler α) :
    (rowAnswer row handler >>= fun _ => .done ()) = onRows handler := by
  rw [rowAnswer, Program.bind_assoc]
  rfl

theorem recordAnswer_forget (handler : RecordHandler Record) :
    (recordAnswer handler >>= fun _ => .done ()) = onRecords handler := by
  rw [recordAnswer, Program.bind_assoc]
  rfl

theorem withCaller_forget {state : AppState} {headers : Headers}
    {handler : String → Answering} {endpoint : String → Endpoint}
    (same : ∀ actor, (handler actor >>= fun _ => .done ()) = endpoint actor) :
    (withCaller state headers handler >>= fun _ => .done ()) =
      withActor state headers endpoint := by
  unfold withCaller withActor
  cases fromRequestParts state.defaultActor headers with
  | ok actor => exact same actor
  | error rejection => rfl

/-- The router runs this handler, and forgets the row. -/
theorem dispatch_of_answer {state : AppState} {headers : Headers}
    {route : WriteRoute} {program : Answering}
    (answers : answer state headers route = some program) :
    (program >>= fun _ => .done ()) = dispatch state headers route := by
  cases route with
  | createRun | event | artifact | toolInvocation | sideEffect | guardrail
  | humanApproval | biasSlice =>
      cases answers
      exact withCaller_forget fun _ => rowAnswer_forget _ _
  | record request =>
      cases answers
      exact withCaller_forget fun _ => recordAnswer_forget _
  | anchors => cases answers

/-- A request is handled by this handler, whose row is forgotten. -/
theorem handle_of_answerTo {state : AppState} {request : HttpRequest}
    {program : Answering}
    (answers :
      answerTo state request.headers request.route = some program) :
    (program >>= fun _ => .done ()) = handle state request := by
  rcases Option.map_eq_some_iff.mp answers with ⟨routed, found, rfl⟩
  unfold handle
  split
  · exact dispatch_of_answer found
  · rfl

/-! ## The row of a request -/

/-- The route writes one row, whatever is in the database already. -/
def writesOne : WriteRoute → Bool
  | .biasSlice _ input => input.runId.isSome
  | .record (.binding _ _) => true
  | .record _ => false
  | .anchors _ _ _ _ _ _ => false
  | _ => true

/-- The row has the columns that a request of a caller fills. -/
inductive Fills (runtime : Runtime) (actor : String) :
    WriteRoute → Entry → Prop where
  | run (id : Uuid) (input : CreateRun) {startedAt : Timestamptz}
      (bound : bindTimestamp input.startedAt = .ok startedAt) :
      Fills runtime actor (.createRun id input)
        (.ofRow
          (.run
            { id := id
              agent := input.agent
              startedAt := startedAt
              metadata := runtime.jsonb input.metadata
              actorId := actor }))
  | chained {route : WriteRoute} {request : String → WriteRequest}
      (writes : writeOf route = some request) {seq : Int64} {draft : Draft}
      (drafted : draftOf runtime seq (request actor) = some draft)
      {columns : ChainColumns} (named : columns.id = draft.id)
      {row : ChainedRow} (built : draft.build columns = .ok row) :
      Fills runtime actor route (.ofRow (.chained row))
  | binding (runId : Uuid) (input : CreateRunVersionBinding) :
      Fills runtime actor (.record (.binding runId input))
        (.ofRecord
          (.binding
            { runId := runId
              promptVersionId := input.promptVersionId
              policyVersionId := input.policyVersionId
              evalResultId := input.evalResultId
              actorId := actor }))

/-! ## What is committed -/

section Conclusions

variable {runtime : Runtime}

theorem concludes_liftExcept_bind {α : Type} {result : Except Exit α}
    {next : α → Handler ChainedRow}
    (concludes : ∀ value, Concludes Row.chained (next value)) :
    Concludes Row.chained (liftExcept result >>= next) := by
  cases result with
  | ok value => exact concludes value
  | error exit => exact concludes_raise exit

theorem concludes_insertDraft {wrap : Fault → Exit} {createdAt : Int}
    {draft : Draft} :
    Concludes Row.chained (insertDraft runtime wrap createdAt draft) := by
  unfold insertDraft computeChain
  rw [Program.bind_assoc]
  refine concludes_attempt_bind rfl fun _ => ?_
  rw [Program.bind_assoc]
  refine concludes_attempt_bind rfl fun rows => ?_
  refine concludes_liftExcept_bind fun link => ?_
  exact concludes_liftExcept_bind fun row => concludes_insert row

theorem concludes_createFrom {wrap : Fault → Exit} {draft : Draft} :
    Concludes Row.chained (createFrom runtime wrap draft) :=
  concludes_attempt_bind rfl fun _ => concludes_insertDraft

/-- A write commits the row it answers with, and nothing with an error. -/
theorem concludes_write (request : WriteRequest) :
    Concludes Row.chained (write runtime request) := by
  cases request with
  | event actor id runId input =>
      refine concludes_attempt_bind rfl fun createdAt => ?_
      refine concludes_attempt_bind rfl fun _ => ?_
      refine concludes_attempt_bind rfl fun known => ?_
      split
      · refine concludes_attempt_bind rfl fun rows => ?_
        exact concludes_liftExcept_bind fun seq => concludes_insertDraft
      · exact concludes_raise _
  | artifact actor id parts =>
      refine concludes_liftExcept_bind fun upload => ?_
      refine concludes_liftExcept_bind fun runId => ?_
      refine concludes_liftExcept_bind fun data => ?_
      refine concludes_attempt_bind rfl fun _ => ?_
      exact concludes_attempt_bind rfl fun _ => concludes_insertDraft
  | toolInvocation | sideEffect | guardrail | humanApproval =>
      exact concludes_createFrom
  | biasSlice actor id input =>
      change Concludes Row.chained (createBiasSlice runtime actor id input)
      unfold createBiasSlice
      split
      · exact concludes_raise _
      · refine concludes_attempt_bind rfl fun createdAt => ?_
        split
        · exact concludes_liftExcept_bind fun scoreStr =>
            concludes_insertDraft
        · exact concludes_insert _

theorem concludes_createRun {actor : String} {id : Uuid}
    {input : CreateRun} :
    Concludes Row.run (createRun runtime actor id input) := by
  unfold createRun
  cases bindTimestamp input.startedAt with
  | ok startedAt => exact concludes_publish _
  | error exit => exact concludes_raise exit

theorem concludes_createRunBinding {actor : String} {runId : Uuid}
    {input : CreateRunVersionBinding} :
    Concludes Entry.ofRecord (createRunBinding actor runId input) := by
  refine concludes_attempt_bind rfl fun known => ?_
  split
  · exact concludes_publish _
  · exact concludes_raise _

end Conclusions

/-! ## What is answered -/

/-- A program that has run to its end with a value may return it. -/
theorem returns_of_runs {Row Effect ε α : Type}
    {program : Program (database Int64 Row Effect Fault) ε α}
    {before after : Tally Row} {value : α}
    (ran : Runs program before after (.ok value)) : Returns program value := by
  rcases ran with ⟨events, executed, _⟩
  exact ⟨events, executed⟩

section Routes

variable {state : AppState} {headers : Headers} {after : Tally Entry}
variable {outcome : Except HttpError Entry}

/-- One row was answered and committed, or nothing was. -/
def Answered (runtime : Runtime) (actor : String) (route : WriteRoute)
    (after : Tally Entry) (outcome : Except HttpError Entry) : Prop :=
  (∃ entry,
      outcome = .ok entry ∧ after.committed = [entry] ∧
        Fills runtime actor route entry) ∨
    ∃ error, outcome = .error error ∧ after.committed = []

theorem answered_rowAnswer {α : Type} {runtime : Runtime} {actor : String}
    {route : WriteRoute} {row : α → Row} {handler : Handler α}
    (concludes : Concludes row handler)
    (fills :
      ∀ value, Returns handler value →
        Fills runtime actor route (.ofRow (row value)))
    (ran : Runs (rowAnswer row handler) Tally.zero after outcome) :
    Answered runtime actor route after outcome := by
  rcases runs_bind_iff.mp ran with
    ⟨error, failed, rfl⟩ | ⟨value, middle, served, rest⟩
  · rcases concludes.embed after _ failed with
      ⟨_, ⟨⟩, _⟩ | ⟨_, _, nothing⟩
    exact Or.inr ⟨error, rfl, nothing⟩
  · rcases runs_done_iff.mp rest with ⟨rfl, rfl⟩
    rcases concludes.embed after _ served with
      ⟨_, ⟨⟩, one⟩ | ⟨_, ⟨⟩, _⟩
    rcases @runs_of_embed _ _ _ _ _ _ _ _ _ _ _ _ Tally.zero _ _ served with
      ⟨after', outcome', ran', rfl, same⟩
    rcases outcome' with exit | value'
    · cases same
    · cases same
      exact Or.inl ⟨_, rfl, one, fills value (returns_of_runs ran')⟩

theorem answered_recordAnswer {runtime : Runtime} {actor : String}
    {route : WriteRoute} {handler : RecordHandler Record}
    (concludes : Concludes Entry.ofRecord handler)
    (fills :
      ∀ value, Returns handler value →
        Fills runtime actor route (.ofRecord value))
    (ran : Runs (recordAnswer handler) Tally.zero after outcome) :
    Answered runtime actor route after outcome := by
  rcases runs_bind_iff.mp ran with
    ⟨error, failed, rfl⟩ | ⟨value, middle, served, rest⟩
  · rcases concludes.embed after _ failed with
      ⟨_, ⟨⟩, _⟩ | ⟨_, _, nothing⟩
    exact Or.inr ⟨error, rfl, nothing⟩
  · rcases runs_done_iff.mp rest with ⟨rfl, rfl⟩
    rcases concludes.embed after _ served with
      ⟨_, ⟨⟩, one⟩ | ⟨_, ⟨⟩, _⟩
    rcases @runs_of_embed _ _ _ _ _ _ _ _ _ _ _ _ Tally.zero _ _ served with
      ⟨after', outcome', ran', rfl, same⟩
    rcases outcome' with exit | value'
    · cases same
    · cases same
      exact Or.inl ⟨_, rfl, one, fills value (returns_of_runs ran')⟩

/-- The row of a write is built from the draft of its request. -/
theorem fills_of_returns_write {runtime : Runtime} {actor : String}
    {route : WriteRoute} {request : String → WriteRequest}
    (writes : writeOf route = some request) (one : writesOne route = true)
    {row : ChainedRow} (returned : Returns (write runtime (request actor)) row) :
    Fills runtime actor route (.ofRow (.chained row)) := by
  have joins : joinsChain (request actor) = true := by
    cases route <;> cases writes
    all_goals first | rfl | exact one
  rcases linked_of_returns returned with
    ⟨_, draft, drafted, link, createdAt, _, built⟩ | ⟨apart, _⟩
  · exact .chained writes drafted rfl built
  · rw [joins] at apart
    cases apart

theorem fills_of_returns_createRun {runtime : Runtime} {actor : String}
    {id : Uuid} {input : CreateRun} {run : Run}
    (returned : Returns (createRun runtime actor id input) run) :
    Fills runtime actor (.createRun id input) (.ofRow (.run run)) := by
  rcases returns_bind_iff.mp returned with ⟨startedAt, bound, returned⟩
  rcases returns_bind_iff.mp returned with ⟨_, _, returned⟩
  rw [returns_liftExcept_iff] at bound
  cases returns_done_iff.mp returned
  exact .run id input bound

theorem fills_of_returns_createRunBinding {runtime : Runtime}
    {actor : String} {runId : Uuid} {input : CreateRunVersionBinding}
    {bound : Record}
    (returned : Returns (createRunBinding actor runId input) bound) :
    Fills runtime actor (.record (.binding runId input)) (.ofRecord bound) := by
  rcases returns_bind_iff.mp returned with ⟨known, _, returned⟩
  split at returned
  · rcases returns_bind_iff.mp returned with ⟨_, _, returned⟩
    cases returns_done_iff.mp returned
    exact .binding runId input
  · exact absurd returned not_returns_raise

/--
A route that writes one row answers with a row of its caller that it has
committed alone, or it ends in an error and has committed nothing.
-/
theorem answered_of_runs {route : WriteRoute} {program : Answering}
    (answers : answerTo state headers route = some program)
    (one : writesOne route = true)
    (ran : Runs program Tally.zero after outcome) :
    (∃ actor,
        fromRequestParts state.defaultActor headers = .ok actor ∧
          Answered state.service.runtime actor route after outcome) ∨
      ∃ error, outcome = .error error ∧ after.committed = [] := by
  rcases Option.map_eq_some_iff.mp answers with ⟨routed, found, rfl⟩
  split at ran
  · have served {handler : String → Answering}
        (ran : Runs (withCaller state headers handler) Tally.zero after outcome)
        (answered :
          ∀ actor, Runs (handler actor) Tally.zero after outcome →
            Answered state.service.runtime actor route after outcome) :
        (∃ actor,
            fromRequestParts state.defaultActor headers = .ok actor ∧
              Answered state.service.runtime actor route after outcome) ∨
          ∃ error, outcome = .error error ∧ after.committed = [] := by
      unfold withCaller at ran
      cases extracted : fromRequestParts state.defaultActor headers with
      | ok actor =>
          rw [extracted] at ran
          exact Or.inl ⟨actor, rfl, answered actor ran⟩
      | error rejection =>
          rw [extracted] at ran
          rcases runs_raise_iff.mp ran with ⟨rfl, rfl⟩
          exact Or.inr ⟨_, rfl, rfl⟩
    cases route with
    | createRun id input =>
        cases found
        exact served ran fun actor =>
          answered_rowAnswer concludes_createRun
            fun _ => fills_of_returns_createRun
    | event | artifact | toolInvocation | sideEffect | guardrail
    | humanApproval | biasSlice =>
        cases found
        exact served ran fun actor =>
          answered_rowAnswer (concludes_write _)
            fun _ => fills_of_returns_write rfl one
    | record request =>
        cases found
        cases request with
        | binding runId input =>
            exact served ran fun actor =>
              answered_recordAnswer concludes_createRunBinding
                fun _ => fills_of_returns_createRunBinding
        | _ => cases one
    | anchors => cases found
  · rcases runs_raise_iff.mp ran with ⟨rfl, rfl⟩
    exact Or.inr ⟨_, rfl, rfl⟩

end Routes

end Trackward.Ledger.Answers
