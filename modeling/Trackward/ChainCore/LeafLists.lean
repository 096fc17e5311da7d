import Trackward.ChainCore.Merkle
import Trackward.Lib.MerkleRepeats
import Trackward.Lib.Sha256

/-!
# Leaf lists with one root

The number of leaves is not hashed into the root, and `[a]` and `[a, a]` have
one leaf layer once it is padded.  Leaf lists without repetitions are safe from
this: the root alone identifies them, whatever their lengths.
-/

namespace Trackward.ChainCore.LeafLists

open Trackward.ChainCore.CanonicalJson
open Trackward.ChainCore.Merkle
open Trackward.Lib.Collisions
open Trackward.Lib.MerkleTree
open Trackward.Lib.Octets

/-- Leaves and nodes are hashed under different domains. -/
theorem leafInput_ne_nodeInput (rowHash : Digest)
    (children : Digest × Digest) : leafInput rowHash ≠ nodeInput children := by
  intro same
  have starts := congrArg (List.take merkleLeafDomain.length) same
  have domains : merkleLeafDomain.length = merkleNodeDomain.length := rfl
  rw [leafInput, nodeInput, List.append_assoc, List.take_left, domains,
    List.take_left] at starts
  exact absurd starts (by decide +kernel)

variable {sha256 : Bytes → Digest}

/-- A leaf layer does not begin like a layer of nodes. -/
theorem not_agree_next {rowHashes level : List Digest} {inputs : List Bytes}
    (free : CollisionFree sha256 inputs) (nonempty : rowHashes ≠ [])
    (hashed : ∀ input ∈ rowHashes.map leafInput, input ∈ inputs)
    (hashed' : ∀ input ∈ (pairs level).map nodeInput, input ∈ inputs) :
    ¬ Agree (leafLevel sha256 rowHashes) (next sha256 nodeInput level) := by
  intro agree
  have heads := agree.head?
  rcases List.exists_cons_of_ne_nil nonempty with ⟨rowHash, others, rfl⟩
  rw [leafLevel, List.map_cons, List.head?_cons, next] at heads
  cases shape : pairs level with
  | nil =>
      rw [shape] at heads
      cases heads
  | cons children rest =>
      rw [shape] at heads hashed'
      rw [List.map_cons, List.map_cons, List.head?_cons, Option.some.injEq]
        at heads
      have same :=
        free (leafInput rowHash) (hashed _ List.mem_cons_self)
          (nodeInput children) (hashed' _ List.mem_cons_self) heads
      exact leafInput_ne_nodeInput rowHash children same

/-- With one root, leaf lists agree up to a repetition. -/
theorem agree_of_computeRoot {first second : List Digest} {root : Digest}
    {inputs : List Bytes} (free : CollisionFree sha256 inputs)
    (hashed : ∀ input ∈ hashedInputs sha256 first, input ∈ inputs)
    (hashed' : ∀ input ∈ hashedInputs sha256 second, input ∈ inputs)
    (computed : computeRoot sha256 first = .ok root)
    (computed' : computeRoot sha256 second = .ok root)
    (higher :
      height first.length (leafLevel sha256 first).length ≤
        height second.length (leafLevel sha256 second).length) :
    Agree first second := by
  simp only [hashedInputs, List.mem_append] at hashed hashed'
  have climbed :=
    (climb_leafLevel computed).trans (climb_leafLevel computed').symm
  have agree :=
    agree_of_climb nodeInput_injective free
      (fun input member => hashed input (Or.inr member))
      (fun input member => hashed' input (Or.inr member)) climbed
      (Nat.le_refl _) higher
  rw [Nat.sub_self, Function.iterate_zero_apply] at agree
  cases more :
      height second.length (leafLevel sha256 second).length -
        height first.length (leafLevel sha256 first).length with
  | zero =>
      rw [more, Function.iterate_zero_apply, leafLevel_eq, leafLevel_eq]
        at agree
      apply agree_of_injective leafInput_injective
      exact
        agree_of_map free (fun input member => hashed input (Or.inl member))
          (fun input member => hashed' input (Or.inl member)) agree
  | succ steps =>
      exfalso
      rw [more, Function.iterate_succ_apply'] at agree
      have nonempty : first ≠ [] :=
        (computeRoot_isOk_iff first).mp ⟨root, computed⟩
      refine
        not_agree_next free nonempty
          (fun input member => hashed input (Or.inl member)) ?_ agree
      intro input member
      exact hashed' input (Or.inr (mem_climbInputs (by omega) member))

/--
Two leaf lists without repetitions have one root only if they are equal, if no
two strings that were hashed for the two roots collide.
-/
theorem leaves_eq_of_computeRoot {first second : List Digest} {root : Digest}
    (distinct : first.Nodup) (distinct' : second.Nodup)
    (free :
      CollisionFree sha256
        (hashedInputs sha256 first ++ hashedInputs sha256 second))
    (computed : computeRoot sha256 first = .ok root)
    (computed' : computeRoot sha256 second = .ok root) : first = second := by
  have hashed :
      ∀ input ∈ hashedInputs sha256 first,
        input ∈ hashedInputs sha256 first ++ hashedInputs sha256 second :=
    fun _ member => List.mem_append_left _ member
  have hashed' :
      ∀ input ∈ hashedInputs sha256 second,
        input ∈ hashedInputs sha256 first ++ hashedInputs sha256 second :=
    fun _ member => List.mem_append_right _ member
  rcases
    Nat.le_total (height first.length (leafLevel sha256 first).length)
      (height second.length (leafLevel sha256 second).length) with
    higher | lower
  · have agree :=
      agree_of_computeRoot free hashed hashed' computed computed' higher
    exact agree.eq_of_nodup distinct distinct'
  · have agree :=
      agree_of_computeRoot free hashed' hashed computed' computed lower
    exact agree.symm.eq_of_nodup distinct distinct'

def leafOne : Digest :=
  Block.replicate 32 1

def leafTwo : Digest :=
  Block.replicate 32 2

/-- The root of two leaves identifies them. -/
theorem leaves_eq_of_computeRoot_twoLeaves :
    ∃ root,
      computeRoot Trackward.Lib.Sha256.sha256 [leafOne, leafTwo] = .ok root ∧
        [leafOne, leafTwo] = [leafTwo, leafOne].reverse := by
  rcases (computeRoot_isOk_iff [leafOne, leafTwo]).mpr (by simp) with
    ⟨root, computed⟩
  refine ⟨root, computed, ?_⟩
  exact
    leaves_eq_of_computeRoot (by decide) (by decide) (by decide +kernel)
      computed computed

end Trackward.ChainCore.LeafLists
