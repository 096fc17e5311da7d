import Trackward.Lib.KeyedLists
import Trackward.Ledger.Models
import Mathlib.Data.Prod.Lex

/-!
# The hash chain of a run

A handler that writes to a chained table locks the chain of the table and the
run, reads the row hash of the tail and hashes the fields of its row after it.
The tail is the chained row with the greatest `created_at`, and among those the
greatest id.
-/

namespace Trackward.Ledger.Chain

open Trackward.ChainCore.CanonicalJson
open Trackward.ChainCore.Chain
open Trackward.ChainCore.Encode
open Trackward.Ledger.Models
open Trackward.Lib.KeyedLists
open Trackward.Lib.Octets
open Trackward.Lib.Programs
open Trackward.Lib.Transactions

/-! ## Tables and locks -/

/-- The name of a table in the database and in the row encoding. -/
def name : ChainTable → String
  | .events => "events"
  | .artifacts => "artifacts"
  | .toolInvocations => "tool_invocations"
  | .sideEffects => "side_effects"
  | .guardrails => "guardrails"
  | .humanApprovals => "human_approvals"
  | .biasSlices => "bias_slices"

/-- The part of a lock key that depends on the table. -/
def lockDiscriminator : ChainTable → UInt64
  | .events => 0xE7E1000100000000
  | .artifacts => 0xA471000200000000
  | .toolInvocations => 0x7001000300000000
  | .sideEffects => 0x51DE000400000000
  | .guardrails => 0x6A21000500000000
  | .humanApprovals => 0xB0A0000600000000
  | .biasSlices => 0xB1A5000700000000

/-- Fold the bytes of an identifier into 64 bits. -/
def uuidToU64 (id : Uuid) : UInt64 :=
  (uuidBytes id).zipIdx.foldl
    (fun key byte =>
      key ^^^ byte.1.toUInt64 <<< UInt64.ofNat (byte.2 % 8 * 8))
    0

/-- The advisory lock of a chain. -/
def chainLockKey (table : ChainTable) (runId : Uuid) : Int64 :=
  (uuidToU64 runId ^^^ lockDiscriminator table).toInt64

/-! ## The tail -/

/-- The row is chained in one table and run. -/
def inChain (table : ChainTable) (runId : Uuid) (row : ChainedRow) : Bool :=
  row.table = table && row.runId = some runId && row.isChained

/-- The chained rows of one table and run, in commit order. -/
def chainOf (table : ChainTable) (runId : Uuid) (rows : List Row) :
    List ChainedRow :=
  (chainedRows rows).filter (inChain table runId)

/-- A new row of the chain is its last one. -/
theorem chainOf_concat_of_inChain
    {table : ChainTable} {runId : Uuid} {row : ChainedRow}
    (member : inChain table runId row = true) (rows : List Row) :
    chainOf table runId (rows ++ [.chained row]) =
      chainOf table runId rows ++ [row] := by
  simp [chainOf, chainedRows, Row.chained?, member]

/-- A chain does not change when a row of no or of another chain is added. -/
theorem chainOf_concat_of_not_inChain
    {table : ChainTable} {runId : Uuid} {row : Row}
    (other : ∀ chained, row = .chained chained →
      inChain table runId chained = false)
    (rows : List Row) :
    chainOf table runId (rows ++ [row]) = chainOf table runId rows := by
  cases row with
  | run row => simp [chainOf, chainedRows, Row.chained?]
  | chained row =>
      simp [chainOf, chainedRows, Row.chained?, other row rfl]
  | anchor row leaves => simp [chainOf, chainedRows, Row.chained?]

/-- What the rows of a chain are ordered by. -/
def stamp (row : ChainedRow) : Int ×ₗ Nat :=
  toLex (row.columns.createdAt, row.columns.id.toNat)

/-- The row with the greatest `created_at` and id. -/
def tailRow (rows : List ChainedRow) : Option ChainedRow :=
  greatest stamp rows

/-- The row hash of the tail of a chain. -/
def tail (table : ChainTable) (runId : Uuid) (rows : List Row) :
    Option Bytes :=
  (tailRow (chainOf table runId rows)).map fun row => row.columns.rowHash

/-! ## Linking a row -/

/-- The hashes a new row is inserted with. -/
structure ChainLink where
  prevHash : Option Bytes
  rowHash : Bytes
  deriving DecidableEq

/-- The hash a new row is chained to; the genesis value in a fresh chain. -/
def prevArr : Option Bytes → Except Exit Digest
  | some bytes =>
      match Block.ofBytes? 32 bytes with
      | some prev => .ok prev
      | none =>
          .error (.error (.internal "chain tail row has malformed row_hash"))
  | none => .ok genesisPrev

/-- The link of a row with these fields after the tail `prev`. -/
def linkAfter
    (runtime : Runtime) (table : ChainTable)
    (fields : List CanonicalField) (prev : Option Bytes) :
    Except Exit ChainLink :=
  match prevArr prev with
  | .error exit => .error exit
  | .ok prevHash =>
      match canonicalRowBytes runtime.chrono (name table) fields with
      | .error panic => .error (.panic panic)
      | .ok rowBytes =>
          .ok ⟨prev,
            (computeRowHash runtime.sha256 prevHash rowBytes).bytes⟩

/-- Continue with a computed value, or end the handler. -/
def liftExcept {α : Type} : Except Exit α → Handler α
  | .ok value => .done value
  | .error exit => .raise exit

/-- Lock the chain, look up its tail and link a row with these fields. -/
def computeChain
    (runtime : Runtime) (table : ChainTable) (runId : Uuid)
    (fields : List CanonicalField) : Handler ChainLink := do
  let _ ← query (.lock (chainLockKey table runId))
  let rows ← query .select
  liftExcept (linkAfter runtime table fields (tail table runId rows))

/-- The hash a link continues from, the genesis value if there is none. -/
theorem linkAfter_eq_ok_iff
    {runtime : Runtime} {table : ChainTable}
    {fields : List CanonicalField} {prev : Option Bytes}
    {link : ChainLink} :
    linkAfter runtime table fields prev = .ok link ↔
      ∃ prevHash rowBytes,
        prevArr prev = .ok prevHash ∧
          canonicalRowBytes runtime.chrono (name table) fields =
              .ok rowBytes ∧
            link =
              ⟨prev,
                (computeRowHash runtime.sha256 prevHash rowBytes).bytes⟩ := by
  unfold linkAfter
  cases prevArr prev with
  | error exit => simp
  | ok prevHash =>
      dsimp only
      cases canonicalRowBytes runtime.chrono (name table) fields with
      | error panic => simp
      | ok rowBytes =>
          simp only [Except.ok.injEq, exists_eq_left', exists_and_left]
          exact eq_comm

end Trackward.Ledger.Chain
