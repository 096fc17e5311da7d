import Trackward.ChainCore.CanonicalJson
import Trackward.Lib.MerkleTree

/-!
# The Merkle tree over row hashes

Leaves and internal nodes are hashed under different domains, odd nodes are
paired with themselves, and the root of no leaves is undefined.

Among leaf lists of one length the root determines the leaves, unless two
different strings that were hashed collide.
-/

namespace Trackward.ChainCore.Merkle

open Trackward.ChainCore.CanonicalJson
open Trackward.Lib.Collisions
open Trackward.Lib.MerkleTree
open Trackward.Lib.Octets

/-- Domain prefix of leaf hashing. -/
def merkleLeafDomain : Bytes :=
  utf8 "trackward-merkle-leaf-v1\x00"

/-- Domain prefix of internal-node hashing. -/
def merkleNodeDomain : Bytes :=
  utf8 "trackward-merkle-node-v1\x00"

/-- What is hashed for a leaf. -/
def leafInput (rowHash : Digest) : Bytes :=
  merkleLeafDomain ++ rowHash.bytes

/-- What is hashed for two children. -/
def nodeInput (children : Digest × Digest) : Bytes :=
  merkleNodeDomain ++ children.1.bytes ++ children.2.bytes

theorem leafInput_injective : Function.Injective leafInput := by
  intro first second same
  exact Block.ext (List.append_cancel_left same)

theorem nodeInput_injective : Function.Injective nodeInput := by
  rintro ⟨left, right⟩ ⟨left', right'⟩ same
  simp only [nodeInput, List.append_assoc, List.append_cancel_left_eq]
    at same
  have split := Block.append_inj same
  rw [split.1, Block.ext split.2]

section Root

variable (sha256 : Bytes → Digest)

/-- The leaf-layer node of a row hash. -/
def leafHash (rowHash : Digest) : Digest :=
  sha256 (leafInput rowHash)

/-- The node over two children. -/
def nodeHash (left right : Digest) : Digest :=
  sha256 (nodeInput (left, right))

/-- The leaf layer of the tree. -/
def leafLevel (rowHashes : List Digest) : List Digest :=
  rowHashes.map (leafHash sha256)

/-- The root of the tree over a nonempty list of row hashes. -/
def computeRoot (rowHashes : List Digest) : Except Panic Digest :=
  match climb sha256 nodeInput rowHashes.length (leafLevel sha256 rowHashes) with
  | root :: _ => .ok root
  | [] => .error .noLeaves

/-- The byte strings hashed while a root is computed. -/
def hashedInputs (rowHashes : List Digest) : List Bytes :=
  rowHashes.map leafInput ++
    climbInputs sha256 nodeInput rowHashes.length
      (leafLevel sha256 rowHashes)

end Root

variable {sha256 : Bytes → Digest}

theorem leafLevel_eq (rowHashes : List Digest) :
    leafLevel sha256 rowHashes = (rowHashes.map leafInput).map sha256 := by
  rw [List.map_map]
  rfl

/-- The loop ends with exactly one node when there are leaves. -/
theorem climb_leafLevel {rowHashes : List Digest} {root : Digest}
    (computed : computeRoot sha256 rowHashes = .ok root) :
    climb sha256 nodeInput rowHashes.length (leafLevel sha256 rowHashes) =
      [root] := by
  have lengths : (leafLevel sha256 rowHashes).length = rowHashes.length := by
    simp [leafLevel]
  unfold computeRoot at computed
  split at computed
  · rename_i root' rest climbed
    cases computed
    have nonempty : leafLevel sha256 rowHashes ≠ [] := by
      intro empty
      have none : rowHashes.length = 0 := by
        rw [← lengths, empty, List.length_nil]
      rw [none, empty] at climbed
      cases climbed
    have single :=
      length_climb sha256 nodeInput lengths.le nonempty
    rw [climbed, List.length_cons, Nat.add_eq_right,
      List.length_eq_zero_iff] at single
    rw [climbed, single]
  · cases computed

/-- A root exists exactly when there are leaves. -/
theorem computeRoot_isOk_iff (rowHashes : List Digest) :
    (∃ root, computeRoot sha256 rowHashes = .ok root) ↔ rowHashes ≠ [] := by
  have lengths : (leafLevel sha256 rowHashes).length = rowHashes.length := by
    simp [leafLevel]
  constructor
  · rintro ⟨root, computed⟩ rfl
    cases computed
  · intro nonempty
    have nonemptyLevel : leafLevel sha256 rowHashes ≠ [] := by
      simpa [leafLevel] using nonempty
    have single :=
      length_climb sha256 nodeInput lengths.le nonemptyLevel
    rcases List.length_eq_one_iff.mp single with ⟨root, climbed⟩
    exact ⟨root, by rw [computeRoot, climbed]⟩

/-- Among leaf lists of one length the root determines the leaves. -/
theorem computeRoot_inj
    {first second : List Digest} {root : Digest} {inputs : List Bytes}
    (lengths : first.length = second.length)
    (free : CollisionFree sha256 inputs)
    (hashed : ∀ input ∈ hashedInputs sha256 first, input ∈ inputs)
    (hashed' : ∀ input ∈ hashedInputs sha256 second, input ∈ inputs)
    (computed : computeRoot sha256 first = .ok root)
    (computed' : computeRoot sha256 second = .ok root) :
    first = second := by
  simp only [hashedInputs, List.mem_append] at hashed hashed'
  have climbed :=
    (climb_leafLevel computed).trans (climb_leafLevel computed').symm
  rw [← lengths] at climbed hashed'
  have levels : leafLevel sha256 first = leafLevel sha256 second :=
    climb_inj nodeInput_injective (by simpa [leafLevel] using lengths) free
      (fun input member => hashed input (Or.inr member))
      (fun input member => hashed' input (Or.inr member)) climbed
  rw [leafLevel_eq, leafLevel_eq] at levels
  have leaves :=
    free.map_inj
      (fun input member => hashed input (Or.inl member))
      (fun input member => hashed' input (Or.inl member)) levels
  exact leafInput_injective.list_map leaves

end Trackward.ChainCore.Merkle
