import Trackward.Ledger.Chain
import Trackward.Lib.Hexadecimal

/-!
# The write handlers

Each of the seven chained tables has one handler that writes to it.  A handler
begins a transaction, links its row into the chain of the table and the run,
inserts it and commits.  An error or a panic drops the transaction.

What the handlers share is `insertDraft`; a `Draft` is the row a handler is
about to insert, with the fields it hashes for it.  A draft carries the proof
that the row goes to the table and run it is chained in.
-/

namespace Trackward.Ledger.Routes

open Trackward.ChainCore.CanonicalJson
open Trackward.ChainCore.Chrono
open Trackward.ChainCore.Encode
open Trackward.ChainCore.JsonValue
open Trackward.Ledger.Chain
open Trackward.Ledger.Models
open Trackward.Ledger.Timestamps
open Trackward.Lib
open Trackward.Lib.Octets
open Trackward.Lib.Programs
open Trackward.Lib.Transactions

/-! ## Computations that fail -/

/-- An exit that is an error and no panic. -/
def IsError (exit : Exit) : Prop :=
  ∃ error, exit = .error error

/-- The computation fails only with errors. -/
def NoPanic {α : Type} (result : Except Exit α) : Prop :=
  ∀ exit, result = .error exit → IsError exit

theorem noPanic_ok {α : Type} (value : α) :
    NoPanic (.ok value : Except Exit α) := by
  rintro exit ⟨⟩

theorem noPanic_error {α : Type} (error : Error) :
    NoPanic (.error (.error error) : Except Exit α) := by
  rintro exit ⟨⟩
  exact ⟨error, rfl⟩

theorem NoPanic.bind
    {α β : Type} {first : Except Exit α} {next : α → Except Exit β}
    (earlier : NoPanic first) (later : ∀ value, NoPanic (next value)) :
    NoPanic (first >>= next) := by
  cases first with
  | ok value => exact later value
  | error exit =>
      rintro exit' ⟨⟩
      exact earlier exit rfl

theorem bind_eq_ok_iff
    {α β : Type} {first : Except Exit α} {next : α → Except Exit β}
    {result : β} :
    (first >>= next) = .ok result ↔
      ∃ value, first = .ok value ∧ next value = .ok result := by
  cases first with
  | error exit => simp [bind, Except.bind]
  | ok value => simp [bind, Except.bind]

/-! ## Drafts -/

/-- The names of the fields that are hashed for a row of a table. -/
def hashedNames : ChainTable → List String
  | .events =>
      ["id", "run_id", "seq", "kind", "body", "occurred_at", "actor_id"]
  | .artifacts =>
      ["id", "run_id", "sha256", "size_bytes", "media_type", "label",
        "metadata", "actor_id"]
  | .toolInvocations =>
      ["id", "run_id", "tool", "input", "output", "status", "status_code",
        "started_at", "finished_at", "metadata", "actor_id"]
  | .sideEffects =>
      ["id", "run_id", "tool_invocation_id", "kind", "target", "status",
        "confirmation", "observed_at", "actor_id"]
  | .guardrails =>
      ["id", "run_id", "name", "stage", "target", "outcome", "detail",
        "evaluated_at", "actor_id"]
  | .humanApprovals =>
      ["id", "run_id", "tool", "decision", "reason", "decided_by",
        "requested_at", "decided_at", "metadata", "actor_id"]
  | .biasSlices =>
      ["id", "run_id", "eval_result_id", "label", "value", "score",
        "metadata", "actor_id"]

/-- A row before its bookkeeping columns are known, and its hashed fields. -/
structure Draft where
  id : Uuid
  table : ChainTable
  runId : Uuid
  fields : List CanonicalField
  build : ChainColumns → Except Exit ChainedRow
  placed :
    ∀ columns row, build columns = .ok row →
      row.table = table ∧ row.runId = some runId ∧ row.columns = columns
  named : fields.map CanonicalField.name = hashedNames table
  rejects : ∀ columns, NoPanic (build columns)

/-- Insert a row and commit. -/
def insertRow (wrap : Fault → Exit) (row : ChainedRow) :
    Handler ChainedRow := do
  let _ ← (attempt (.insert (.chained row)) wrap : Handler Unit)
  let _ ← query .commit
  return row

/-- Link a draft into its chain, insert it and commit. -/
def insertDraft
    (runtime : Runtime) (wrap : Fault → Exit) (createdAt : Int)
    (draft : Draft) : Handler ChainedRow := do
  let link ← computeChain runtime draft.table draft.runId draft.fields
  let row ← liftExcept (draft.build
    { id := draft.id
      prevHash := link.prevHash
      rowHash := link.rowHash
      createdAt := createdAt })
  insertRow wrap row

/-- A failed statement is a database error. -/
def dbError (fault : Fault) : Exit :=
  .error (.db fault)

/-- Bind a timestamp to a parameter of a statement. -/
def bindTimestamp (time : DateTime) : Except Exit Timestamptz :=
  match toTimestamptz time with
  | some stored => .ok stored
  | none => .error (dbError ⟨false, "timestamp out of range"⟩)

theorem noPanic_bindTimestamp (time : DateTime) :
    NoPanic (bindTimestamp time) := by
  unfold bindTimestamp
  split
  · exact noPanic_ok _
  · exact noPanic_error _

theorem bindTimestamp_eq_ok_iff
    {time : DateTime} {stored : Timestamptz} :
    bindTimestamp time = .ok stored ↔ toTimestamptz time = some stored := by
  unfold bindTimestamp
  cases toTimestamptz time <;> simp

/-! ## Events -/

/-- The key of the lock that orders the appends to one run. -/
def uuidToLockKey (id : Uuid) : Int64 :=
  (uuidToU64 id).toInt64

/-- The greatest `seq` of a run, 0 without events. -/
def maxSeq (rows : List Row) (runId : Uuid) : Int :=
  (((eventRows rows).filter fun event => event.runId = runId).map
    fun event => event.seq.toInt).max?.getD 0

/-- The next `seq` of a run; past the range of the column the query fails. -/
def nextSeq (rows : List Row) (runId : Uuid) : Except Exit Int64 :=
  if maxSeq rows runId + 1 < 2 ^ 63 then
    .ok (Int64.ofInt (maxSeq rows runId + 1))
  else .error (dbError ⟨false, "bigint out of range"⟩)

def eventDraft
    (runtime : Runtime) (actor : String) (id runId : Uuid) (seq : Int64)
    (input : CreateEvent) : Draft where
  id := id
  table := .events
  runId := runId
  fields :=
    [.uuid "id" id,
      .uuid "run_id" runId,
      .i64 "seq" seq,
      .str "kind" input.kind,
      .json "body" input.body,
      .timestamp "occurred_at" input.occurredAt,
      .str "actor_id" actor]
  build := fun columns => do
    let occurredAt ← bindTimestamp input.occurredAt
    return .event
      { toChainColumns := columns
        runId := runId
        seq := seq
        kind := input.kind
        body := runtime.jsonb input.body
        occurredAt := occurredAt
        actorId := actor }
  placed := by
    intro columns row built
    rcases bind_eq_ok_iff.mp built with ⟨occurredAt, _, ⟨⟩⟩
    exact ⟨rfl, rfl, rfl⟩
  named := rfl
  rejects := fun _ =>
    (noPanic_bindTimestamp _).bind fun _ => noPanic_ok _

/-- `events::append`. -/
def appendEvent
    (runtime : Runtime) (actor : String) (id runId : Uuid)
    (input : CreateEvent) : Handler ChainedRow := do
  let createdAt ← query .begin
  let _ ← query (.lock (uuidToLockKey runId))
  let known ← query .select
  if runExists known runId then
    let rows ← query .select
    let seq ← liftExcept (nextSeq rows runId)
    insertDraft runtime dbError createdAt
      (eventDraft runtime actor id runId seq input)
  else .raise (.error .notFound)

/-! ## Artifacts -/

/-- What a multipart body has set so far. -/
structure Upload where
  runId : Option Uuid
  label : String
  mediaType : String
  fileData : Option Bytes
  metadata : Json

/-- The defaults of an upload. -/
def Upload.initial : Upload where
  runId := none
  label := ""
  mediaType := "application/octet-stream"
  fileData := none
  metadata := ⟨.object [], by decide⟩

/-- Reading or parsing a part, with the message of a failure. -/
def badRequest {α : Type} (context : String) :
    Except String α → Except Exit α
  | .ok value => .ok value
  | .error message => .error (.error (.badRequest (context ++ message)))

/-- Take one part of the body into account. -/
def Upload.read (runtime : Runtime) (upload : Upload) (part : Part) :
    Except Exit Upload :=
  match part.name.getD "" with
  | "run_id" => do
      let text ← badRequest "" part.text
      let runId ← badRequest "invalid run_id: " (runtime.parseUuid text)
      return { upload with runId := some runId }
  | "label" => do
      let label ← badRequest "" part.text
      return { upload with label := label }
  | "media_type" => do
      let mediaType ← badRequest "" part.text
      return { upload with mediaType := mediaType }
  | "metadata" => do
      let text ← badRequest "" part.text
      let metadata ←
        badRequest "invalid metadata JSON: " (runtime.parseJson text)
      return { upload with metadata := metadata }
  | "file" => do
      let data ← badRequest "" part.bytes
      return { upload with fileData := some data }
  | _ => .ok upload

/--
Read the parts of a body.  The loop ends at the last part and, in the same
way, at the first part that cannot be read from the stream.
-/
def Upload.readAll (runtime : Runtime) :
    Upload → List (Except String Part) → Except Exit Upload
  | upload, [] => .ok upload
  | upload, .error _ :: _ => .ok upload
  | upload, .ok part :: parts => do
      let upload ← upload.read runtime part
      readAll runtime upload parts

/-- The hex digest of a blob. -/
def sha256Hex (runtime : Runtime) (data : Bytes) : String :=
  Hexadecimal.encode (runtime.sha256 data).bytes

/-- A member of an upload that must be present. -/
def required {α : Type} (text : String) : Option α → Except Exit α
  | some value => .ok value
  | none => .error (.error (.badRequest text))

def artifactDraft
    (runtime : Runtime) (actor : String) (id runId : Uuid)
    (upload : Upload) (data : Bytes) : Draft where
  id := id
  table := .artifacts
  runId := runId
  fields :=
    [.uuid "id" id,
      .uuid "run_id" runId,
      .str "sha256" (sha256Hex runtime data),
      .i64 "size_bytes" (Int64.ofNat data.length),
      .str "media_type" upload.mediaType,
      .str "label" upload.label,
      .json "metadata" upload.metadata,
      .str "actor_id" actor]
  build := fun columns =>
    .ok (.artifact
      { toChainColumns := columns
        runId := runId
        sha256 := sha256Hex runtime data
        sizeBytes := Int64.ofNat data.length
        mediaType := upload.mediaType
        label := upload.label
        metadata := runtime.jsonb upload.metadata
        actorId := actor })
  placed := by
    rintro columns row ⟨⟩
    exact ⟨rfl, rfl, rfl⟩
  named := rfl
  rejects := fun _ => noPanic_ok _

/-- `artifacts::upload`. -/
def uploadArtifact
    (runtime : Runtime) (actor : String) (id : Uuid)
    (parts : List (Except String Part)) : Handler ChainedRow := do
  let upload ← liftExcept (Upload.readAll runtime Upload.initial parts)
  let runId ← liftExcept (required "missing run_id" upload.runId)
  let data ← liftExcept (required "missing file" upload.fileData)
  let _ ←
    (attempt (.emit (.blob (sha256Hex runtime data) data)) fun fault =>
      .error (.s3 fault.text) : Handler Unit)
  let createdAt ← query .begin
  insertDraft runtime dbError createdAt
    (artifactDraft runtime actor id runId upload data)

/-! ## Tool invocations, side effects, guardrails -/

def toolInvocationDraft
    (runtime : Runtime) (actor : String) (id : Uuid)
    (input : CreateToolInvocation) : Draft where
  id := id
  table := .toolInvocations
  runId := input.runId
  fields :=
    [.uuid "id" id,
      .uuid "run_id" input.runId,
      .str "tool" input.tool,
      .json "input" input.input,
      .json "output" input.output,
      .str "status" input.status,
      .optI64 "status_code" (input.statusCode.map Int32.toInt64),
      .timestamp "started_at" input.startedAt,
      .timestamp "finished_at" input.finishedAt,
      .json "metadata" input.metadata,
      .str "actor_id" actor]
  build := fun columns => do
    let startedAt ← bindTimestamp input.startedAt
    let finishedAt ← bindTimestamp input.finishedAt
    return .toolInvocation
      { toChainColumns := columns
        runId := input.runId
        tool := input.tool
        input := runtime.jsonb input.input
        output := runtime.jsonb input.output
        status := input.status
        statusCode := input.statusCode
        startedAt := startedAt
        finishedAt := finishedAt
        metadata := runtime.jsonb input.metadata
        actorId := actor }
  placed := by
    intro columns row built
    rcases bind_eq_ok_iff.mp built with ⟨startedAt, _, rest⟩
    rcases bind_eq_ok_iff.mp rest with ⟨finishedAt, _, ⟨⟩⟩
    exact ⟨rfl, rfl, rfl⟩
  named := by cases input.statusCode <;> rfl
  rejects := fun _ =>
    (noPanic_bindTimestamp _).bind fun _ =>
      (noPanic_bindTimestamp _).bind fun _ => noPanic_ok _

def sideEffectDraft
    (runtime : Runtime) (actor : String) (id : Uuid)
    (input : CreateSideEffect) : Draft where
  id := id
  table := .sideEffects
  runId := input.runId
  fields :=
    [.uuid "id" id,
      .uuid "run_id" input.runId,
      .optUuid "tool_invocation_id" input.toolInvocationId,
      .str "kind" input.kind,
      .str "target" input.target,
      .str "status" input.status,
      .json "confirmation" input.confirmation,
      .timestamp "observed_at" input.observedAt,
      .str "actor_id" actor]
  build := fun columns => do
    let observedAt ← bindTimestamp input.observedAt
    return .sideEffect
      { toChainColumns := columns
        runId := input.runId
        toolInvocationId := input.toolInvocationId
        kind := input.kind
        target := input.target
        status := input.status
        confirmation := runtime.jsonb input.confirmation
        observedAt := observedAt
        actorId := actor }
  placed := by
    intro columns row built
    rcases bind_eq_ok_iff.mp built with ⟨observedAt, _, ⟨⟩⟩
    exact ⟨rfl, rfl, rfl⟩
  named := by cases input.toolInvocationId <;> rfl
  rejects := fun _ =>
    (noPanic_bindTimestamp _).bind fun _ => noPanic_ok _

def guardrailDraft
    (runtime : Runtime) (actor : String) (id : Uuid)
    (input : CreateGuardrail) : Draft where
  id := id
  table := .guardrails
  runId := input.runId
  fields :=
    [.uuid "id" id,
      .uuid "run_id" input.runId,
      .str "name" input.name,
      .str "stage" input.stage,
      .optStr "target" input.target,
      .str "outcome" input.outcome,
      .json "detail" input.detail,
      .timestamp "evaluated_at" input.evaluatedAt,
      .str "actor_id" actor]
  build := fun columns => do
    let evaluatedAt ← bindTimestamp input.evaluatedAt
    return .guardrail
      { toChainColumns := columns
        runId := input.runId
        name := input.name
        stage := input.stage
        target := input.target
        outcome := input.outcome
        detail := runtime.jsonb input.detail
        evaluatedAt := evaluatedAt
        actorId := actor }
  placed := by
    intro columns row built
    rcases bind_eq_ok_iff.mp built with ⟨evaluatedAt, _, ⟨⟩⟩
    exact ⟨rfl, rfl, rfl⟩
  named := by cases input.target <;> rfl
  rejects := fun _ =>
    (noPanic_bindTimestamp _).bind fun _ => noPanic_ok _

/-- Begin a transaction and insert a draft: the body of most handlers. -/
def createFrom
    (runtime : Runtime) (wrap : Fault → Exit) (draft : Draft) :
    Handler ChainedRow := do
  let createdAt ← query .begin
  insertDraft runtime wrap createdAt draft

/-- `tool_invocations::create`. -/
def createToolInvocation
    (runtime : Runtime) (actor : String) (id : Uuid)
    (input : CreateToolInvocation) : Handler ChainedRow :=
  createFrom runtime dbError (toolInvocationDraft runtime actor id input)

/-- `side_effects::create`. -/
def createSideEffect
    (runtime : Runtime) (actor : String) (id : Uuid)
    (input : CreateSideEffect) : Handler ChainedRow :=
  createFrom runtime dbError (sideEffectDraft runtime actor id input)

/-- `guardrails::create`. -/
def createGuardrail
    (runtime : Runtime) (actor : String) (id : Uuid)
    (input : CreateGuardrail) : Handler ChainedRow :=
  createFrom runtime dbError (guardrailDraft runtime actor id input)

/-! ## Human approvals -/

def humanApprovalDraft
    (runtime : Runtime) (actor : String) (input : CreateHumanApproval) :
    Draft where
  id := input.id
  table := .humanApprovals
  runId := input.runId
  fields :=
    [.uuid "id" input.id,
      .uuid "run_id" input.runId,
      .str "tool" input.tool,
      .str "decision" input.decision,
      .optStr "reason" input.reason,
      .optStr "decided_by" input.decidedBy,
      .timestamp "requested_at" input.requestedAt,
      .timestamp "decided_at" input.decidedAt,
      .json "metadata" input.metadata,
      .str "actor_id" actor]
  build := fun columns => do
    let requestedAt ← bindTimestamp input.requestedAt
    let decidedAt ← bindTimestamp input.decidedAt
    return .humanApproval
      { toChainColumns := columns
        runId := input.runId
        tool := input.tool
        decision := input.decision
        reason := input.reason
        decidedBy := input.decidedBy
        requestedAt := requestedAt
        decidedAt := decidedAt
        metadata := runtime.jsonb input.metadata
        actorId := actor }
  placed := by
    intro columns row built
    rcases bind_eq_ok_iff.mp built with ⟨requestedAt, _, rest⟩
    rcases bind_eq_ok_iff.mp rest with ⟨decidedAt, _, ⟨⟩⟩
    exact ⟨rfl, rfl, rfl⟩
  named := by cases input.reason <;> cases input.decidedBy <;> rfl
  rejects := fun _ =>
    (noPanic_bindTimestamp _).bind fun _ =>
      (noPanic_bindTimestamp _).bind fun _ => noPanic_ok _

/-- An id that is already recorded is a conflict. -/
def conflictError (fault : Fault) : Exit :=
  if fault.uniqueViolation then
    .error (.conflict "human_approval already recorded")
  else dbError fault

/-- `human_approvals::create`. -/
def createHumanApproval
    (runtime : Runtime) (actor : String) (input : CreateHumanApproval) :
    Handler ChainedRow :=
  createFrom runtime conflictError (humanApprovalDraft runtime actor input)

/-! ## Bias slices -/

/-- The text a score is hashed as; a non-finite score stops the handler. -/
def scoreText (runtime : Runtime) :
    Option F64 → Except Exit (Option String)
  | none => .ok none
  | some f =>
      if f.isFinite then .ok (some (runtime.f64ToString f))
      else .error .scoreNotFinite

/-- The row of a bias slice. -/
def biasSliceRow
    (runtime : Runtime) (actor : String) (input : CreateBiasSlice)
    (columns : ChainColumns) : ChainedRow :=
  .biasSlice
    { toChainColumns := columns
      runId := input.runId
      evalResultId := input.evalResultId
      label := input.label
      value := input.value
      score := input.score
      metadata := runtime.jsonb input.metadata
      actorId := actor }

def biasSliceDraft
    (runtime : Runtime) (actor : String) (id runId : Uuid)
    (scoreStr : Option String) (input : CreateBiasSlice)
    (ofRun : input.runId = some runId) : Draft where
  id := id
  table := .biasSlices
  runId := runId
  fields :=
    [.uuid "id" id,
      .uuid "run_id" runId,
      .optUuid "eval_result_id" input.evalResultId,
      .str "label" input.label,
      .optStr "value" input.value,
      .optStr "score" scoreStr,
      .json "metadata" input.metadata,
      .str "actor_id" actor]
  build := fun columns => .ok (biasSliceRow runtime actor input columns)
  placed := by
    rintro columns row ⟨⟩
    exact ⟨rfl, ofRun, rfl⟩
  named := by
    cases input.evalResultId <;> cases input.value <;> cases scoreStr <;> rfl
  rejects := fun _ => noPanic_ok _

/-- `bias_slices::create`; only a slice of a run is chained. -/
def createBiasSlice
    (runtime : Runtime) (actor : String) (id : Uuid)
    (input : CreateBiasSlice) : Handler ChainedRow :=
  if input.runId.isNone && input.evalResultId.isNone then
    .raise (.error
      (.badRequest "bias_slice requires either run_id or eval_result_id"))
  else do
    let createdAt ← query .begin
    match ofRun : input.runId with
    | some runId => do
        let scoreStr ← liftExcept (scoreText runtime input.score)
        insertDraft runtime dbError createdAt
          (biasSliceDraft runtime actor id runId scoreStr input ofRun)
    | none =>
        insertRow dbError
          (biasSliceRow runtime actor input
            { id := id
              prevHash := none
              rowHash := ChainedRow.legacyRowHash
              createdAt := createdAt })

/-! ## Write requests -/

/--
A request to one of the seven chained tables, with the identifier the handler
mints for its row.
-/
inductive WriteRequest where
  | event (actor : String) (id runId : Uuid) (input : CreateEvent)
  | artifact (actor : String) (id : Uuid)
      (parts : List (Except String Part))
  | toolInvocation (actor : String) (id : Uuid)
      (input : CreateToolInvocation)
  | sideEffect (actor : String) (id : Uuid) (input : CreateSideEffect)
  | guardrail (actor : String) (id : Uuid) (input : CreateGuardrail)
  | humanApproval (actor : String) (input : CreateHumanApproval)
  | biasSlice (actor : String) (id : Uuid) (input : CreateBiasSlice)

/-- The handler of a write request. -/
def write (runtime : Runtime) : WriteRequest → Handler ChainedRow
  | .event actor id runId input => appendEvent runtime actor id runId input
  | .artifact actor id parts => uploadArtifact runtime actor id parts
  | .toolInvocation actor id input =>
      createToolInvocation runtime actor id input
  | .sideEffect actor id input => createSideEffect runtime actor id input
  | .guardrail actor id input => createGuardrail runtime actor id input
  | .humanApproval actor input => createHumanApproval runtime actor input
  | .biasSlice actor id input => createBiasSlice runtime actor id input

/-- `runs::create`. -/
def createRun
    (runtime : Runtime) (actor : String) (id : Uuid) (input : CreateRun) :
    Handler Run := do
  let startedAt ← liftExcept (bindTimestamp input.startedAt)
  let run : Run :=
    { id := id
      agent := input.agent
      startedAt := startedAt
      metadata := runtime.jsonb input.metadata
      actorId := actor }
  let _ ← query (.publish (.run run))
  return run

end Trackward.Ledger.Routes
