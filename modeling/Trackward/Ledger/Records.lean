import Trackward.Ledger.Anchoring

/-!
# Versions, bindings, custody and cases

The tables that are not chained and the handlers that write to them: registered
prompts and policies, evaluations, the versions a run is bound to, custody
events, cases with their evidence, and signed export bundles.

None of these handlers opens a transaction: each statement stands alone.  The
columns a database default fills in are left out, as no handler reads them.
-/

namespace Trackward.Ledger.Records

open Trackward.ChainCore.Chrono
open Trackward.ChainCore.Encode
open Trackward.ChainCore.JsonValue
open Trackward.Ledger.Anchoring
open Trackward.Ledger.Chain
open Trackward.Ledger.Models
open Trackward.Ledger.Routes
open Trackward.Ledger.Timestamps
open Trackward.Lib
open Trackward.Lib.Octets
open Trackward.Lib.Programs
open Trackward.Lib.Transactions

/-! ## Inputs -/

structure CreatePromptVersion where
  workflow : String
  version : String
  gitSha : String
  contentHash : String
  metadata : Json

structure CreatePolicyVersion where
  scope : String
  version : String
  gitSha : String
  contentHash : String
  metadata : Json

structure CreateEvalResult where
  workflow : String
  version : String
  promptVersionId : Option Uuid
  gitSha : String
  contentHash : String
  passed : Bool
  summary : Json
  ranAt : DateTime

structure CreateRunVersionBinding where
  promptVersionId : Option Uuid
  policyVersionId : Option Uuid
  evalResultId : Option Uuid

structure CreateCustodyEvent where
  evidenceType : String
  evidenceId : Uuid
  action : String
  actor : String
  reason : Option String
  occurredAt : DateTime
  metadata : Json

structure CreateCase where
  title : String
  description : String
  openedBy : String
  openedAt : DateTime
  metadata : Json

structure CreateCaseEvidence where
  evidenceType : String
  evidenceId : Uuid
  linkedBy : String
  note : Option String
  linkedAt : DateTime

structure CreateExportBundle where
  signedBy : String
  fixedSignedAt : Option DateTime

/-! ## Rows -/

structure PromptVersion where
  id : Uuid
  workflow : String
  version : String
  gitSha : String
  contentHash : String
  metadata : Json
  actorId : String

structure PolicyVersion where
  id : Uuid
  scope : String
  version : String
  gitSha : String
  contentHash : String
  metadata : Json
  actorId : String

structure EvalResult where
  id : Uuid
  workflow : String
  version : String
  promptVersionId : Option Uuid
  gitSha : String
  contentHash : String
  passed : Bool
  summary : Json
  ranAt : Timestamptz
  actorId : String

structure RunVersionBinding where
  runId : Uuid
  promptVersionId : Option Uuid
  policyVersionId : Option Uuid
  evalResultId : Option Uuid
  actorId : String

structure CustodyEvent where
  id : Uuid
  evidenceType : String
  evidenceId : Uuid
  action : String
  actor : String
  reason : Option String
  occurredAt : Timestamptz
  metadata : Json
  actorId : String

structure Case where
  id : Uuid
  title : String
  description : String
  openedBy : String
  openedAt : Timestamptz
  metadata : Json
  actorId : String

structure CaseEvidence where
  caseId : Uuid
  evidenceType : String
  evidenceId : Uuid
  linkedBy : String
  linkedAt : Timestamptz
  note : Option String
  actorId : String

structure ExportBundle where
  id : Uuid
  caseId : Uuid
  manifestJson : String
  manifestSha256 : String
  signature : String
  keyId : String
  publicKeyHex : String
  signedBy : String
  signedAt : Timestamptz
  actorId : String

/-- A row of a table that is not chained. -/
inductive Record where
  | promptVersion (row : PromptVersion)
  | policyVersion (row : PolicyVersion)
  | evalResult (row : EvalResult)
  | binding (row : RunVersionBinding)
  | custodyEvent (row : CustodyEvent)
  | case (row : Case)
  | caseEvidence (row : CaseEvidence)
  | exportBundle (row : ExportBundle)

namespace Record

def actorId : Record → String
  | .promptVersion row => row.actorId
  | .policyVersion row => row.actorId
  | .evalResult row => row.actorId
  | .binding row => row.actorId
  | .custodyEvent row => row.actorId
  | .case row => row.actorId
  | .caseEvidence row => row.actorId
  | .exportBundle row => row.actorId

def promptVersion? : Record → Option PromptVersion
  | .promptVersion row => some row
  | _ => none

def policyVersion? : Record → Option PolicyVersion
  | .policyVersion row => some row
  | _ => none

def binding? : Record → Option RunVersionBinding
  | .binding row => some row
  | _ => none

def case? : Record → Option Case
  | .case row => some row
  | _ => none

def caseEvidence? : Record → Option CaseEvidence
  | .caseEvidence row => some row
  | _ => none

end Record

/-- A row of any table. -/
inductive Entry where
  | ofRow (row : Row)
  | ofRecord (record : Record)

namespace Entry

def row? : Entry → Option Row
  | .ofRow row => some row
  | .ofRecord _ => none

def record? : Entry → Option Record
  | .ofRow _ => none
  | .ofRecord record => some record

end Entry

/-- The records among the rows of all tables. -/
def records (entries : List Entry) : List Record :=
  entries.filterMap Entry.record?

/-- The whole database. -/
abbrev wholeDb : Interface :=
  database Int64 Entry Effect Fault

/-- A handler of a record. -/
abbrev RecordHandler (α : Type) := Program wholeDb Exit α

def select : RecordHandler (List Entry) :=
  attempt .select dbError

/-- Insert a record, with the error a refused one ends in. -/
def insertRecord (wrap : Fault → Exit) (record : Record) :
    RecordHandler Record := do
  let _ ← (attempt (.publish (.ofRecord record)) wrap : RecordHandler Unit)
  return record

def liftRecord {α : Type} : Except Exit α → RecordHandler α
  | .ok value => .done value
  | .error exit => .raise exit

/-! ## Handlers -/

/-- `prompt_versions::create`; what is registered is not written again. -/
def createPromptVersion
    (runtime : Runtime) (actor : String) (id : Uuid)
    (input : CreatePromptVersion) : RecordHandler Record := do
  let known ← select
  let existing :=
    ((records known).filterMap Record.promptVersion?).find? fun row =>
      row.workflow = input.workflow && row.version = input.version &&
        row.contentHash = input.contentHash
  match existing with
  | some row => return .promptVersion row
  | none =>
      insertRecord dbError
        (.promptVersion
          { id := id
            workflow := input.workflow
            version := input.version
            gitSha := input.gitSha
            contentHash := input.contentHash
            metadata := runtime.jsonb input.metadata
            actorId := actor })

/-- `policy_versions::create`; what is registered is not written again. -/
def createPolicyVersion
    (runtime : Runtime) (actor : String) (id : Uuid)
    (input : CreatePolicyVersion) : RecordHandler Record := do
  let known ← select
  let existing :=
    ((records known).filterMap Record.policyVersion?).find? fun row =>
      row.scope = input.scope && row.version = input.version &&
        row.contentHash = input.contentHash
  match existing with
  | some row => return .policyVersion row
  | none =>
      insertRecord dbError
        (.policyVersion
          { id := id
            scope := input.scope
            version := input.version
            gitSha := input.gitSha
            contentHash := input.contentHash
            metadata := runtime.jsonb input.metadata
            actorId := actor })

/-- `eval_results::create`. -/
def createEvalResult
    (runtime : Runtime) (actor : String) (id : Uuid)
    (input : CreateEvalResult) : RecordHandler Record := do
  let ranAt ← liftRecord (bindTimestamp input.ranAt)
  insertRecord dbError
    (.evalResult
      { id := id
        workflow := input.workflow
        version := input.version
        promptVersionId := input.promptVersionId
        gitSha := input.gitSha
        contentHash := input.contentHash
        passed := input.passed
        summary := runtime.jsonb input.summary
        ranAt := ranAt
        actorId := actor })

/-- A row that is already there is a conflict with this message. -/
def conflictOf (message : String) (fault : Fault) : Exit :=
  if fault.uniqueViolation then .error (.conflict message)
  else dbError fault

/-- `run_bindings::create`. -/
def createRunBinding
    (actor : String) (runId : Uuid) (input : CreateRunVersionBinding) :
    RecordHandler Record := do
  let known ← select
  if runExists (known.filterMap Entry.row?) runId then
    insertRecord (conflictOf "run already bound to a version set")
      (.binding
        { runId := runId
          promptVersionId := input.promptVersionId
          policyVersionId := input.policyVersionId
          evalResultId := input.evalResultId
          actorId := actor })
  else .raise (.error .notFound)

/-- `custody_events::create`. -/
def createCustodyEvent
    (runtime : Runtime) (actor : String) (id : Uuid)
    (input : CreateCustodyEvent) : RecordHandler Record := do
  let occurredAt ← liftRecord (bindTimestamp input.occurredAt)
  insertRecord dbError
    (.custodyEvent
      { id := id
        evidenceType := input.evidenceType
        evidenceId := input.evidenceId
        action := input.action
        actor := input.actor
        reason := input.reason
        occurredAt := occurredAt
        metadata := runtime.jsonb input.metadata
        actorId := actor })

/-- `cases::create`. -/
def createCase
    (runtime : Runtime) (actor : String) (id : Uuid) (input : CreateCase) :
    RecordHandler Record := do
  let openedAt ← liftRecord (bindTimestamp input.openedAt)
  insertRecord dbError
    (.case
      { id := id
        title := input.title
        description := input.description
        openedBy := input.openedBy
        openedAt := openedAt
        metadata := runtime.jsonb input.metadata
        actorId := actor })

/-- `case_evidence::link`. -/
def linkCaseEvidence
    (actor : String) (caseId : Uuid) (input : CreateCaseEvidence) :
    RecordHandler Record := do
  let linkedAt ← liftRecord (bindTimestamp input.linkedAt)
  insertRecord (conflictOf "evidence already linked to this case")
    (.caseEvidence
      { caseId := caseId
        evidenceType := input.evidenceType
        evidenceId := input.evidenceId
        linkedBy := input.linkedBy
        linkedAt := linkedAt
        note := input.note
        actorId := actor })

/-! ### Export bundles -/

/--
How `serde_json` writes a value and `chrono` a timestamp, and the order in
which the database sorts texts.
-/
structure Export where
  jsonToString : Value → String
  dateTimeText : DateTime → String
  collation : String → String → Bool

/-- By type of evidence, then by its id. -/
def evidenceBefore (collation : String → String → Bool)
    (first second : CaseEvidence) : Bool :=
  if collation first.evidenceType second.evidenceType &&
      collation second.evidenceType first.evidenceType then
    first.evidenceId.toNat ≤ second.evidenceId.toNat
  else collation first.evidenceType second.evidenceType

/-- The manifest of a case, with its members in the order of the fields. -/
def manifestValue (exporter : Export) (caseId : Uuid) (signedAt : DateTime)
    (evidence : List CaseEvidence) : Value :=
  .object
    [("case_id", .string (uuidText caseId)),
      ("generated_at", .string (exporter.dateTimeText signedAt)),
      ("evidence",
        .array
          (evidence.map fun item =>
            .object
              [("type", .string item.evidenceType),
                ("id", .string (uuidText item.evidenceId))]))]

/-- `export_bundles::create`; `now` is the clock when no time is pinned. -/
def createExportBundle
    (runtime : Runtime) (signing : SigningService) (exporter : Export)
    (actor : String) (id caseId : Uuid) (input : CreateExportBundle)
    (now : DateTime) : RecordHandler Record := do
  let known ← select
  if ((records known).filterMap Record.case?).any fun row =>
      row.id = caseId then
    let linked ← select
    let evidence :=
      (((records linked).filterMap Record.caseEvidence?).filter fun row =>
        row.caseId = caseId).mergeSort (evidenceBefore exporter.collation)
    let signedAt := input.fixedSignedAt.getD now
    let manifestJson :=
      exporter.jsonToString
        (manifestValue exporter caseId signedAt evidence)
    let stored ← liftRecord (bindTimestamp signedAt)
    insertRecord dbError
      (.exportBundle
        { id := id
          caseId := caseId
          manifestJson := manifestJson
          manifestSha256 := sha256Hex runtime (utf8 manifestJson)
          signature :=
            Hexadecimal.encode (signing.sign (utf8 manifestJson)).bytes
          keyId := signing.keyId
          publicKeyHex := signing.publicKeyHex
          signedBy := input.signedBy
          signedAt := stored
          actorId := actor })
  else .raise (.error .notFound)

/-! ## Requests -/

/-- A request to write a record, with the identifier the handler mints. -/
inductive RecordRequest where
  | promptVersion (id : Uuid) (input : CreatePromptVersion)
  | policyVersion (id : Uuid) (input : CreatePolicyVersion)
  | evalResult (id : Uuid) (input : CreateEvalResult)
  | binding (runId : Uuid) (input : CreateRunVersionBinding)
  | custodyEvent (id : Uuid) (input : CreateCustodyEvent)
  | case (id : Uuid) (input : CreateCase)
  | caseEvidence (caseId : Uuid) (input : CreateCaseEvidence)
  | exportBundle (id caseId : Uuid) (input : CreateExportBundle)
      (now : DateTime)

/-- The handler of a record request. -/
def record (runtime : Runtime) (signing : SigningService)
    (exporter : Export) (actor : String) :
    RecordRequest → RecordHandler Record
  | .promptVersion id input => createPromptVersion runtime actor id input
  | .policyVersion id input => createPolicyVersion runtime actor id input
  | .evalResult id input => createEvalResult runtime actor id input
  | .binding runId input => createRunBinding actor runId input
  | .custodyEvent id input => createCustodyEvent runtime actor id input
  | .case id input => createCase runtime actor id input
  | .caseEvidence caseId input => linkCaseEvidence actor caseId input
  | .exportBundle id caseId input now =>
      createExportBundle runtime signing exporter actor id caseId input now

section Statements

variable {allowed : Op Int64 Entry Effect → Prop}

theorem onlyCalls_select_bind {α : Type}
    {next : List Entry → RecordHandler α} (permitted : allowed .select)
    (later : ∀ known, (next known).OnlyCalls allowed) :
    (select >>= next).OnlyCalls allowed :=
  Program.onlyCalls_bind (onlyCalls_attempt permitted) later

theorem onlyCalls_insertRecord {wrap : Fault → Exit} {record : Record}
    (permitted : allowed (.publish (.ofRecord record))) :
    (insertRecord wrap record).OnlyCalls allowed :=
  Program.onlyCalls_bind (onlyCalls_attempt permitted) fun _ => trivial

theorem onlyCalls_liftRecord_bind {α β : Type} {result : Except Exit α}
    {next : α → RecordHandler β}
    (later : ∀ value, (next value).OnlyCalls allowed) :
    (liftRecord result >>= next).OnlyCalls allowed := by
  cases result with
  | ok value => exact later value
  | error exit => trivial

end Statements

/-- A record is written with the caller as its actor. -/
theorem writes_record
    {runtime : Runtime} {signing : SigningService} {exporter : Export}
    {actor : String} {allowed : Entry → Prop} (request : RecordRequest)
    (permitted :
      ∀ record : Record, record.actorId = actor → allowed (.ofRecord record)) :
    (record runtime signing exporter actor request).OnlyCalls
      (Op.Writes allowed) := by
  cases request with
  | promptVersion id input | policyVersion id input =>
      apply onlyCalls_select_bind trivial
      intro known
      dsimp only
      split
      · trivial
      · exact onlyCalls_insertRecord (permitted _ rfl)
  | evalResult id input | custodyEvent id input | case id input
  | caseEvidence caseId input =>
      apply onlyCalls_liftRecord_bind
      intro stored
      exact onlyCalls_insertRecord (permitted _ rfl)
  | binding runId input =>
      apply onlyCalls_select_bind trivial
      intro known
      split
      · exact onlyCalls_insertRecord (permitted _ rfl)
      · trivial
  | exportBundle id caseId input now =>
      apply onlyCalls_select_bind trivial
      intro known
      split
      · apply onlyCalls_select_bind trivial
        intro linked
        apply onlyCalls_liftRecord_bind
        intro stored
        exact onlyCalls_insertRecord (permitted _ rfl)
      · trivial

end Trackward.Ledger.Records
