import Trackward.ChainCore.Chain
import Trackward.ChainCore.Merkle
import Trackward.Ledger.Timestamps
import Trackward.Lib.Sha256
import Trackward.Lib.Transactions

/-!
# The rows of the ledger

The inputs of the write handlers, the rows of the tables they write to, and
the constraints the migrations put on these tables.

A row of a chained table carries the bookkeeping columns of `ChainColumns`; a
row hash of 32 zero bytes marks a row that is not chained.  `created_at` is the
start of the inserting transaction, in microseconds on the clock of the
database.

`Runtime` collects what the handlers use of other crates and of the column
types of the database.
-/

namespace Trackward.Ledger.Models

open Trackward.ChainCore.CanonicalJson
open Trackward.ChainCore.Chrono
open Trackward.ChainCore.Encode
open Trackward.ChainCore.JsonValue
open Trackward.Ledger.Timestamps
open Trackward.Lib
open Trackward.Lib.Octets
open Trackward.Lib.Programs
open Trackward.Lib.Transactions

/-! ## The environment of the handlers -/

/-- The bits of a 64-bit float. -/
structure F64 where
  bits : UInt64
  deriving DecidableEq

/-- Neither an infinity nor not a number. -/
def F64.isFinite (score : F64) : Bool :=
  (score.bits >>> 52) &&& 0x7ff != 0x7ff

/-- What the handlers use of other crates and of the column types. -/
structure Runtime where
  sha256 : Bytes → Digest
  chrono : Formatter
  f64ToString : F64 → String
  f64ToString_short : ∀ score, (utf8 (f64ToString score)).length < 2 ^ 32
  parseUuid : String → Except String Uuid
  parseJson : String → Except String Json
  jsonToVec : Value → Bytes
  jsonb : Json → Json
  jsonb_same : ∀ value, value.FloatFree → (jsonb value).Same value

/--
SHA-256 and RFC 3339 with column types that keep what they are given, for
requests without scores, identifiers in texts, or JSON in texts.
-/
def Runtime.plain : Runtime where
  sha256 := Sha256.sha256
  chrono := rfc3339
  f64ToString := fun _ => ""
  f64ToString_short := fun _ => by decide
  parseUuid := fun _ => .error ""
  parseJson := fun _ => .error ""
  jsonToVec := fun _ => []
  jsonb := id
  jsonb_same := fun value _ => .refl value

/-! ## Inputs of the write handlers -/

structure CreateRun where
  agent : String
  startedAt : DateTime
  metadata : Json

structure CreateEvent where
  kind : String
  body : Json
  occurredAt : DateTime

structure CreateToolInvocation where
  runId : Uuid
  tool : String
  input : Json
  output : Json
  status : String
  statusCode : Option Int32
  startedAt : DateTime
  finishedAt : DateTime
  metadata : Json

structure CreateSideEffect where
  runId : Uuid
  toolInvocationId : Option Uuid
  kind : String
  target : String
  status : String
  confirmation : Json
  observedAt : DateTime

structure CreateGuardrail where
  runId : Uuid
  name : String
  stage : String
  target : Option String
  outcome : String
  detail : Json
  evaluatedAt : DateTime

structure CreateHumanApproval where
  id : Uuid
  runId : Uuid
  tool : String
  decision : String
  reason : Option String
  decidedBy : Option String
  requestedAt : DateTime
  decidedAt : DateTime
  metadata : Json

/-- A number in a JSON body is never deserialised into a non-finite float. -/
structure CreateBiasSlice where
  runId : Option Uuid
  evalResultId : Option Uuid
  label : String
  value : Option String
  score : Option F64
  metadata : Json
  score_finite : ∀ f ∈ score, f.isFinite = true

/-- A part of a multipart body, with what reading it answers. -/
structure Part where
  name : Option String
  text : Except String String
  bytes : Except String Bytes

/-! ## Rows -/

/-- The seven chained tables. -/
inductive ChainTable where
  | events
  | artifacts
  | toolInvocations
  | sideEffects
  | guardrails
  | humanApprovals
  | biasSlices
  deriving DecidableEq

structure Run where
  id : Uuid
  agent : String
  startedAt : Timestamptz
  metadata : Json
  actorId : String

/-- The identity and the chain bookkeeping of a row. -/
structure ChainColumns where
  id : Uuid
  prevHash : Option Bytes
  rowHash : Bytes
  createdAt : Int

structure Event extends ChainColumns where
  runId : Uuid
  seq : Int64
  kind : String
  body : Json
  occurredAt : Timestamptz
  actorId : String

structure Artifact extends ChainColumns where
  runId : Uuid
  sha256 : String
  sizeBytes : Int64
  mediaType : String
  label : String
  metadata : Json
  actorId : String

structure ToolInvocation extends ChainColumns where
  runId : Uuid
  tool : String
  input : Json
  output : Json
  status : String
  statusCode : Option Int32
  startedAt : Timestamptz
  finishedAt : Timestamptz
  metadata : Json
  actorId : String

structure SideEffect extends ChainColumns where
  runId : Uuid
  toolInvocationId : Option Uuid
  kind : String
  target : String
  status : String
  confirmation : Json
  observedAt : Timestamptz
  actorId : String

structure Guardrail extends ChainColumns where
  runId : Uuid
  name : String
  stage : String
  target : Option String
  outcome : String
  detail : Json
  evaluatedAt : Timestamptz
  actorId : String

structure HumanApproval extends ChainColumns where
  runId : Uuid
  tool : String
  decision : String
  reason : Option String
  decidedBy : Option String
  requestedAt : Timestamptz
  decidedAt : Timestamptz
  metadata : Json
  actorId : String

structure BiasSlice extends ChainColumns where
  runId : Option Uuid
  evalResultId : Option Uuid
  label : String
  value : Option String
  score : Option F64
  metadata : Json
  actorId : String

/-- A row of one of the chained tables. -/
inductive ChainedRow where
  | event (row : Event)
  | artifact (row : Artifact)
  | toolInvocation (row : ToolInvocation)
  | sideEffect (row : SideEffect)
  | guardrail (row : Guardrail)
  | humanApproval (row : HumanApproval)
  | biasSlice (row : BiasSlice)

namespace ChainedRow

def table : ChainedRow → ChainTable
  | .event _ => .events
  | .artifact _ => .artifacts
  | .toolInvocation _ => .toolInvocations
  | .sideEffect _ => .sideEffects
  | .guardrail _ => .guardrails
  | .humanApproval _ => .humanApprovals
  | .biasSlice _ => .biasSlices

def columns : ChainedRow → ChainColumns
  | .event row => row.toChainColumns
  | .artifact row => row.toChainColumns
  | .toolInvocation row => row.toChainColumns
  | .sideEffect row => row.toChainColumns
  | .guardrail row => row.toChainColumns
  | .humanApproval row => row.toChainColumns
  | .biasSlice row => row.toChainColumns

def runId : ChainedRow → Option Uuid
  | .event row => some row.runId
  | .artifact row => some row.runId
  | .toolInvocation row => some row.runId
  | .sideEffect row => some row.runId
  | .guardrail row => some row.runId
  | .humanApproval row => some row.runId
  | .biasSlice row => row.runId

/-- The row hash of a row that is not chained. -/
def legacyRowHash : Bytes :=
  List.replicate 32 0

/-- The row belongs to a chain. -/
def isChained (row : ChainedRow) : Bool :=
  row.columns.rowHash != legacyRowHash

end ChainedRow

/-- The receipt of a Merkle anchor. -/
structure Anchor where
  id : Uuid
  runId : Option Uuid
  anchoredFrom : Timestamptz
  anchoredTo : Timestamptz
  leafCount : Int64
  rootHash : Bytes
  signature : Bytes
  keyId : String
  publicKeyHex : String
  anchorTarget : String
  anchoredAt : Timestamptz

/--
A committed row.  The leaves of an anchor are not a column: they are the rows
its root hash was computed from, kept to speak about them.
-/
inductive Row where
  | run (row : Run)
  | chained (row : ChainedRow)
  | anchor (row : Anchor) (leaves : List ChainedRow)

namespace Row

def run? : Row → Option Run
  | .run row => some row
  | _ => none

def chained? : Row → Option ChainedRow
  | .chained row => some row
  | _ => none

def anchor? : Row → Option (Anchor × List ChainedRow)
  | .anchor row leaves => some (row, leaves)
  | _ => none

end Row

/-- The rows of the chained tables, in commit order. -/
def chainedRows (rows : List Row) : List ChainedRow :=
  rows.filterMap Row.chained?

/-- The rows of `events`, in commit order. -/
def eventRows (rows : List Row) : List Event :=
  (chainedRows rows).filterMap fun row =>
    match row with
    | .event row => some row
    | _ => none

/-- A run with this id exists. -/
def runExists (rows : List Row) (runId : Uuid) : Bool :=
  (rows.filterMap Row.run?).any fun run => run.id = runId

/-! ## The schema -/

/-- No row of the table has the id of a new row. -/
def primaryKey (rows : List Row) (row : ChainedRow) : Bool :=
  (chainedRows rows).all fun other =>
    other.table ≠ row.table || other.columns.id ≠ row.columns.id

/-- The lengths of the two hashes are checked. -/
def hashLengths (row : ChainedRow) : Bool :=
  row.columns.prevHash.all (fun hash => hash.length = 32) &&
    row.columns.rowHash.length = 32

/-- The constraints of one table beside those that all chained tables have. -/
def tableConstraints (rows : List Row) : ChainedRow → Bool
  | .event row =>
      (eventRows rows).all fun other =>
        other.runId ≠ row.runId || other.seq ≠ row.seq
  | .sideEffect row =>
      row.toolInvocationId.all fun id =>
        (chainedRows rows).any fun other =>
          other.table = .toolInvocations && other.columns.id = id
  | .biasSlice row => row.runId.isSome || row.evalResultId.isSome
  | _ => true

/-- The constraints of the migrations on a new row. -/
def schema (rows : List Row) : Row → Bool
  | .run row => !runExists rows row.id
  | .chained row =>
      primaryKey rows row && hashLengths row &&
        row.runId.all (runExists rows) && tableConstraints rows row
  | .anchor row _ =>
      (rows.filterMap Row.anchor?).all (fun other => other.1.id ≠ row.id) &&
        row.rootHash.length = 32 && row.signature.length = 64 &&
        row.anchoredFrom.micros < row.anchoredTo.micros &&
        0 < row.leafCount.toInt

/-! ## Errors -/

/-- A failure of the database or of the blob store. -/
structure Fault where
  uniqueViolation : Bool
  text : String
  deriving DecidableEq

/-- The errors of the handlers. -/
inductive Error where
  | notFound
  | db (fault : Fault)
  | s3 (text : String)
  | hashMismatch (expected actual : String)
  | badRequest (text : String)
  | conflict (text : String)
  | internal (text : String)
  deriving DecidableEq

/-- How a handler ends without a row: with an error, or in a panic. -/
inductive Exit where
  | error (error : Error)
  | panic (panic : Panic)
  | scoreNotFinite
  deriving DecidableEq

/-- An effect outside the database: a blob, or the document of an anchor. -/
inductive Effect where
  | blob (sha256Hex : String) (data : Bytes)
  | document (key : String) (bytes : Bytes)

/-- The host of the handlers: advisory locks have 64-bit keys. -/
abbrev ledgerDb : Interface :=
  database Int64 Row Effect Fault

/-- A handler of the ledger. -/
abbrev Handler (α : Type) := Program ledgerDb Exit α

/-- A statement whose failure is a database error. -/
def query (op : Op Int64 Row Effect) : Handler (Reply op) :=
  attempt op fun fault => .error (.db fault)

end Trackward.Ledger.Models
