import Trackward.ChainCore.Encode
import Trackward.Lib.HashChain
import Trackward.Lib.Sha256

/-!
# The hash chain of rows

`row_hash = SHA-256(domain || prev_hash || row_bytes)`.  The first row of a
chain hashes over 32 zero bytes.  SHA-256 is a parameter: any function from
byte strings to digests.

An auditor who replays the rows of a chain from the zero value obtains the
same row hashes, and the last of them commits to every row before it.
-/

namespace Trackward.ChainCore.Chain

open Trackward.Lib
open Trackward.Lib.Collisions
open Trackward.Lib.HashChain
open Trackward.Lib.Octets

/-- Magic prefix of chain hashing. -/
def chainDomain : Bytes :=
  utf8 "trackward-chain-v1\x00"

/-- The `prev_hash` of the first row of a chain. -/
def genesisPrev : Digest :=
  Block.replicate 32 0

/-- What is hashed for a row. -/
def rowHashInput (prevHash : Digest) (rowBytes : Bytes) : Bytes :=
  chainDomain ++ prevHash.bytes ++ rowBytes

/-- The `row_hash` of a row after `prevHash`. -/
def computeRowHash
    (sha256 : Bytes → Digest) (prevHash : Digest) (rowBytes : Bytes) :
    Digest :=
  sha256 (rowHashInput prevHash rowBytes)

/-- The hashed string determines the previous hash and the row. -/
theorem rowHashInput_inj
    {prevHash prevHash' : Digest} {rowBytes rowBytes' : Bytes}
    (same : rowHashInput prevHash rowBytes = rowHashInput prevHash' rowBytes') :
    prevHash = prevHash' ∧ rowBytes = rowBytes' := by
  simp only [rowHashInput, List.append_assoc, List.append_cancel_left_eq]
    at same
  exact Block.append_inj same

/-- Replay a chain: the `row_hash` of every row, linked from the genesis value. -/
def rowHashes (sha256 : Bytes → Digest) (rows : List Bytes) : List Digest :=
  links sha256 rowHashInput genesisPrev rows

/-- The byte strings hashed while a chain is replayed. -/
def hashedInputs (sha256 : Bytes → Digest) (rows : List Bytes) : List Bytes :=
  inputs sha256 rowHashInput genesisPrev rows

/--
The last `row_hash` of a chain commits to the whole chain: two chains that end
in the same hash have the same rows, if no two strings that were hashed
collide and no row hash is the genesis value.
-/
theorem rows_eq_of_getLast_rowHashes_eq
    (sha256 : Bytes → Digest) {rows rows' : List Bytes}
    (nonempty : rows ≠ []) (nonempty' : rows' ≠ [])
    (free :
      CollisionFree sha256
        (hashedInputs sha256 rows ++ hashedInputs sha256 rows'))
    (noGenesis : genesisPrev ∉ rowHashes sha256 rows)
    (noGenesis' : genesisPrev ∉ rowHashes sha256 rows')
    (same :
      (rowHashes sha256 rows).getLast? = (rowHashes sha256 rows').getLast?) :
    rows = rows' := by
  rw [rowHashes, rowHashes, getLast?_links genesisPrev nonempty,
    getLast?_links genesisPrev nonempty', Option.some.injEq] at same
  have noLink :
      ∀ item ∈ hashedInputs sha256 rows ++ hashedInputs sha256 rows',
        sha256 item ≠ genesisPrev := by
    intro item member genesis
    rw [← genesis] at noGenesis noGenesis'
    rcases List.mem_append.mp member with here | there
    · apply noGenesis
      rw [rowHashes, ← map_inputs]
      exact List.mem_map_of_mem here
    · apply noGenesis'
      rw [rowHashes, ← map_inputs]
      exact List.mem_map_of_mem there
  exact
    tip_inj (fun _ _ _ _ => rowHashInput_inj) free
      (fun item member => List.mem_append_left _ member)
      (fun item member => List.mem_append_right _ member)
      noLink same

/-- A chain of three rows hashed with SHA-256, replayed by two auditors. -/
theorem rows_eq_of_replayed_tail :
    ∃ rows rows' : List Bytes,
      rows.length = 3 ∧
        (rowHashes Sha256.sha256 rows).getLast? =
            (rowHashes Sha256.sha256 rows').getLast? ∧
          rows = rows' :=
  ⟨[[1], [2, 3], [1]], [[1], [2, 3], [1]], rfl, rfl,
    rows_eq_of_getLast_rowHashes_eq Sha256.sha256 (by decide) (by decide)
      (by decide +kernel) (by decide +kernel) (by decide +kernel) rfl⟩

end Trackward.ChainCore.Chain
