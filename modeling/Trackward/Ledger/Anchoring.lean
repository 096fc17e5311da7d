import Trackward.Ledger.Routes

/-!
# The anchor pipeline

A tick reads where the last anchor of its scope ended, collects the row hashes
of the window that starts there, signs the Merkle root, ships the document and
inserts the receipt.  These are separate steps outside any transaction, and no
lock is taken.

The windows exclude their start and include their end.
-/

namespace Trackward.Ledger.Anchoring

open Trackward.ChainCore.Chrono
open Trackward.ChainCore.Encode
open Trackward.ChainCore.JsonValue
open Trackward.ChainCore.Merkle
open Trackward.Ledger.Chain
open Trackward.Ledger.Models
open Trackward.Ledger.Routes
open Trackward.Ledger.Timestamps
open Trackward.Lib
open Trackward.Lib.KeyedLists
open Trackward.Lib.Octets
open Trackward.Lib.Programs
open Trackward.Lib.Transactions

/-! ## Scopes -/

/-- Which rows an anchor covers. -/
inductive AnchorScope where
  | global
  | run (id : Uuid)
  deriving DecidableEq

namespace AnchorScope

def runFilter : AnchorScope → Option Uuid
  | .global => none
  | .run id => some id

end AnchorScope

def AnchorScope.keySegment : AnchorScope → String
  | .global => "global"
  | .run id => "run/" ++ uuidText id

/-- The name of a scope in a manifest. -/
def AnchorScope.scopeStr : AnchorScope → String
  | .global => "global"
  | .run id => "run:" ++ uuidText id

/-- A row belongs to the scope. -/
def AnchorScope.covers (scope : AnchorScope) (row : ChainedRow) : Bool :=
  match scope.runFilter with
  | none => true
  | some id => row.runId = some id

/-! ## Windows -/

/-- The anchors of a scope, in commit order, with their leaves. -/
def anchorsOf (scope : AnchorScope) (rows : List Row) :
    List (Anchor × List ChainedRow) :=
  (rows.filterMap Row.anchor?).filter fun anchor =>
    anchor.1.runId = scope.runFilter

/-- The end of the last window of a scope. -/
def lastAnchoredTo (scope : AnchorScope) (rows : List Row) :
    Option Timestamptz :=
  greatest Timestamptz.micros
    ((anchorsOf scope rows).map fun anchor => anchor.1.anchoredTo)

/-- The start of the next window, the epoch when there is no anchor yet. -/
def anchorWindowStart (scope : AnchorScope) (rows : List Row) : DateTime :=
  match lastAnchoredTo scope rows with
  | some last => last.toDateTime
  | none => DateTime.epoch

/-- The chained rows of a window of the scope, by `created_at` and id. -/
def collectRows
    (scope : AnchorScope) (lower upper : Timestamptz) (rows : List Row) :
    List ChainedRow :=
  sortByKey stamp
    ((chainedRows rows).filter fun row =>
      lower.micros < row.columns.createdAt &&
        row.columns.createdAt ≤ upper.micros &&
          row.isChained && scope.covers row)

/-- The row hashes as leaves of a tree. -/
def leafDigests : List ChainedRow → Except Exit (List Digest)
  | [] => .ok []
  | row :: rows =>
      match Block.ofBytes? 32 row.columns.rowHash with
      | some digest => do
          let digests ← leafDigests rows
          return digest :: digests
      | none =>
          .error (.error (.internal "anchor leaf has non-32-byte row_hash"))

/-! ## Manifests and documents -/

/-- The manifest that is signed. -/
structure AnchorManifest where
  version : String
  scope : String
  anchoredFrom : DateTime
  anchoredTo : DateTime
  leafCount : Int64
  rootHash : Digest
  anchoredAt : DateTime

/-- The canonical text of a manifest: sorted keys, no whitespace. -/
def AnchorManifest.canonicalJson
    (chrono : Formatter) (manifest : AnchorManifest) : String :=
  "\x7b\"anchored_at\":\"" ++ chrono.toRfc3339Micros manifest.anchoredAt ++
    "\",\"anchored_from\":\"" ++
      chrono.toRfc3339Micros manifest.anchoredFrom ++
    "\",\"anchored_to\":\"" ++ chrono.toRfc3339Micros manifest.anchoredTo ++
    "\",\"leaf_count\":" ++ toString manifest.leafCount ++
    ",\"root_hash\":\"" ++ Hexadecimal.encode manifest.rootHash.bytes ++
    "\",\"scope\":\"" ++ manifest.scope ++
    "\",\"version\":\"" ++ manifest.version ++ "\"\x7d"

/-- The key pair of the ledger. -/
structure SigningService where
  sign : Bytes → Block 64
  keyId : String
  publicKeyHex : String

/-- The members of the uploaded document. -/
def anchorDoc
    (runtime : Runtime) (signing : SigningService) (manifestJson : String) :
    Value :=
  .object
    [("manifest_json", .string manifestJson),
      ("manifest_sha256", .string (sha256Hex runtime (utf8 manifestJson))),
      ("signature",
        .string
          (Hexadecimal.encode (signing.sign (utf8 manifestJson)).bytes)),
      ("key_id", .string signing.keyId),
      ("public_key_hex", .string signing.publicKeyHex)]

/-- Where documents are shipped. -/
inductive AnchorSink where
  | s3 (bucket : String)
  | memory
  | noop

/-- Upload a document and answer where it is. -/
def AnchorSink.put (sink : AnchorSink) (key : String) (bytes : Bytes) :
    Handler String :=
  let upload : Handler Unit :=
    attempt (.emit (.document key bytes)) fun fault =>
      .error (.s3 fault.text)
  match sink with
  | .s3 bucket => do
      let _ ← upload
      return "s3://" ++ bucket ++ "/" ++ key
  | .memory => do
      let _ ← upload
      return "memory://" ++ key
  | .noop => return "noop://" ++ key

/-! ## A tick -/

/--
A tick, with the identifier and the time it mints for its receipt.  The end of
the window is the clock of the background loop or the choice of a caller.
-/
structure Tick where
  scope : AnchorScope
  untilTs : DateTime
  id : Uuid
  anchoredAt : DateTime

/-- Collect the leaves of a window; its ends are bound as parameters. -/
def collectLeaves
    (scope : AnchorScope) (lower upper : DateTime) :
    Handler (List ChainedRow × List Digest) := do
  let lower ← liftExcept (bindTimestamp lower)
  let upper ← liftExcept (bindTimestamp upper)
  let rows ← query .select
  let collected := collectRows scope lower upper rows
  let digests ← liftExcept (leafDigests collected)
  return (collected, digests)

/-- The root of the leaves of a window. -/
def rootOf (runtime : Runtime) (leaves : List Digest) :
    Except Exit Digest :=
  match computeRoot runtime.sha256 leaves with
  | .ok root => .ok root
  | .error panic => .error (.panic panic)

/-- The receipt of a manifest. -/
def receipt
    (signing : SigningService) (tick : Tick) (manifest : AnchorManifest)
    (signature : Block 64) (target : String) : Except Exit Anchor := do
  let anchoredFrom ← bindTimestamp manifest.anchoredFrom
  let anchoredTo ← bindTimestamp manifest.anchoredTo
  let anchoredAt ← bindTimestamp manifest.anchoredAt
  return {
    id := tick.id
    runId := tick.scope.runFilter
    anchoredFrom := anchoredFrom
    anchoredTo := anchoredTo
    leafCount := manifest.leafCount
    rootHash := manifest.rootHash.bytes
    signature := signature.bytes
    keyId := signing.keyId
    publicKeyHex := signing.publicKeyHex
    anchorTarget := target
    anchoredAt := anchoredAt }

/-- Sign, ship and record an anchor over collected leaves. -/
def mintAnchor
    (runtime : Runtime) (signing : SigningService) (sink : AnchorSink)
    (tick : Tick) (lower : DateTime)
    (leaves : List ChainedRow × List Digest) : Handler Anchor := do
  let root ← liftExcept (rootOf runtime leaves.2)
  let manifest : AnchorManifest :=
    { version := "trackward-anchor-v1"
      scope := tick.scope.scopeStr
      anchoredFrom := lower
      anchoredTo := tick.untilTs
      leafCount := Int64.ofNat leaves.2.length
      rootHash := root
      anchoredAt := tick.anchoredAt }
  let manifestJson := manifest.canonicalJson runtime.chrono
  let signature := signing.sign (utf8 manifestJson)
  let key := tick.scope.keySegment ++ "/" ++ uuidText tick.id ++ ".json"
  let target ←
    sink.put key (runtime.jsonToVec (anchorDoc runtime signing manifestJson))
  let anchor ← liftExcept (receipt signing tick manifest signature target)
  let _ ← query (.publish (.anchor anchor leaves.1))
  return anchor

/-- One anchor tick; an empty window mints nothing. -/
def anchorTick
    (runtime : Runtime) (signing : SigningService) (sink : AnchorSink)
    (tick : Tick) : Handler (Option Anchor) := do
  let seen ← query .select
  let lower := anchorWindowStart tick.scope seen
  if tick.untilTs ≤ lower then return none
  else
    let leaves ← collectLeaves tick.scope lower tick.untilTs
    if leaves.2.isEmpty then return none
    else
      let anchor ← mintAnchor runtime signing sink tick lower leaves
      return some anchor

/-- The scope a request to trigger a tick names. -/
def triggerScope (global : Bool) (runId : Option Uuid) :
    Except Exit AnchorScope :=
  match global, runId with
  | true, none => .ok .global
  | false, some id => .ok (.run id)
  | true, some _ =>
      .error (.error (.badRequest "cannot specify both global and run_id"))
  | false, none =>
      .error (.error (.badRequest "must specify either global or run_id"))

/-- `anchors::trigger`; `now` is the clock when the body names no end. -/
def trigger
    (runtime : Runtime) (signing : SigningService) (sink : AnchorSink)
    (global : Bool) (runId : Option Uuid) (untilTs : Option DateTime)
    (now : DateTime) (id : Uuid) (anchoredAt : DateTime) :
    Handler (Option Anchor) := do
  let scope ← liftExcept (triggerScope global runId)
  anchorTick runtime signing sink
    { scope := scope
      untilTs := untilTs.getD now
      id := id
      anchoredAt := anchoredAt }

end Trackward.Ledger.Anchoring
