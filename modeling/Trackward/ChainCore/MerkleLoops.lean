import Trackward.ChainCore.LeafLists
import Trackward.Lib.MerkleRecursion

/-!
# The loops that compute a Merkle root

The root is computed by two nested loops over indices: the inner one reads the
nodes of a level two at a time, the outer one goes on while a level has more
than one node.  Every index they read is in range, they end after as many
passes as the tree is high, and what they leave is the root of the tree that is
split at the largest power of two below the number of leaves.
-/

namespace Trackward.ChainCore.MerkleLoops

open Trackward.ChainCore.CanonicalJson
open Trackward.ChainCore.LeafLists
open Trackward.ChainCore.Merkle
open Trackward.Lib.MerkleTree
open Trackward.Lib.Octets

/-- How the loops stop without a root. -/
inductive Stop where
  /-- The assertion that there are leaves fails. -/
  | noLeaves
  /-- A level is read at an index it does not have. -/
  | indexOutOfBounds
  /-- More passes are needed than were allowed. -/
  | morePasses
deriving DecidableEq, Repr

section Loops

variable (sha256 : Bytes → Digest)

/-- Read a node of a level. -/
def nodeAt (level : List Digest) (index : Nat) : Except Stop Digest :=
  match level[index]? with
  | some node => .ok node
  | none => .error .indexOutOfBounds

/-- The inner loop from an index on, with the nodes pushed so far. -/
def pairFrom (level next : List Digest) (index : Nat) :
    Except Stop (List Digest) :=
  if index < level.length then do
    let left ← nodeAt level index
    let right ←
      if index + 1 < level.length then nodeAt level (index + 1)
      else .ok left
    pairFrom level (next ++ [nodeHash sha256 left right]) (index + 2)
  else .ok next
termination_by level.length - index

/-- The outer loop, with a bound on its passes and the passes made so far. -/
def climbLoop : Nat → Nat → List Digest → Except Stop (Digest × Nat)
  | bound, passes, level =>
      if 1 < level.length then
        match bound with
        | 0 => .error .morePasses
        | bound + 1 => do
            let next ← pairFrom sha256 level [] 0
            climbLoop bound (passes + 1) next
      else do
        let root ← nodeAt level 0
        return (root, passes)

/-- The root and the number of passes, as the loops compute them. -/
def computeRootLoop (bound : Nat) (rowHashes : List Digest) :
    Except Stop (Digest × Nat) :=
  if rowHashes.isEmpty then .error .noLeaves
  else climbLoop sha256 bound 0 (leafLevel sha256 rowHashes)

/-- The root of the tree split at the largest power of two below. -/
def recursiveRoot (rowHashes : List Digest) (nonempty : rowHashes ≠ []) :
    Digest :=
  treeRoot (leafHash sha256) (nodeHash sha256) rowHashes nonempty

end Loops

variable {sha256 : Bytes → Digest}

theorem nodeAt_of_lt {level : List Digest} {index : Nat}
    (inRange : index < level.length) :
    nodeAt level index = .ok level[index] := by
  rw [nodeAt, List.getElem?_eq_getElem inRange]

/-- The inner loop pairs the nodes from its index on, and reads in range. -/
theorem pairFrom_eq (level pushed : List Digest) (index : Nat) :
    pairFrom sha256 level pushed index =
      .ok (pushed ++ next sha256 nodeInput (level.drop index)) := by
  induction pushed, index using pairFrom.induct sha256 level with
  | case1 pushed index inside induction =>
      rw [pairFrom, if_pos inside, nodeAt_of_lt inside,
        List.drop_eq_getElem_cons inside]
      by_cases more : index + 1 < level.length
      · have paired := induction level[index] level[index + 1]
        rw [List.append_assoc] at paired
        simp only [if_pos more, nodeAt_of_lt more]
        rw [List.drop_eq_getElem_cons more]
        exact paired
      · -- The last node has no partner, and nothing follows it.
        have paired := induction level[index] level[index]
        rw [List.drop_eq_nil_of_le (by omega), List.append_assoc] at paired
        simp only [if_neg more]
        rw [List.drop_eq_nil_of_le (Nat.not_lt.mp more)]
        exact paired
  | case2 pushed index outside =>
      rw [pairFrom, if_neg outside,
        List.drop_eq_nil_of_le (Nat.not_lt.mp outside)]
      exact congrArg Except.ok (List.append_nil pushed).symm

/-- A level is higher than the level above it by one. -/
theorem treeHeight_next {level : List Digest} (several : 1 < level.length) :
    treeHeight level.length =
      treeHeight (next sha256 nodeInput level).length + 1 := by
  rw [length_next]
  exact Nat.clog_of_one_lt Nat.one_lt_two several

/-- A level that is climbed in no pass is its root. -/
theorem eq_singleton_of_flat {level : List Digest} {root : Digest}
    (single : ¬ 1 < level.length)
    (climbed :
      (next sha256 nodeInput)^[treeHeight level.length] level = [root]) :
    level = [root] := by
  have flat : treeHeight level.length = 0 :=
    Nat.clog_of_right_le_one (Nat.not_lt.mp single) 2
  rw [flat, Function.iterate_zero_apply] at climbed
  exact climbed

theorem climbLoop_singleton (bound passes : Nat) (root : Digest) :
    climbLoop sha256 bound passes [root] = .ok (root, passes) := by
  cases bound <;> rfl

/-- The outer loop makes as many passes as the level is high. -/
theorem climbLoop_eq {level : List Digest} {root : Digest}
    (climbed :
      (next sha256 nodeInput)^[treeHeight level.length] level = [root])
    (bound passes : Nat) :
    climbLoop sha256 bound passes level =
      if treeHeight level.length ≤ bound then
        .ok (root, passes + treeHeight level.length)
      else .error .morePasses := by
  induction bound generalizing level passes with
  | zero =>
      by_cases several : 1 < level.length
      · have positive := treeHeight_pos several
        rw [climbLoop, if_pos several, if_neg (by omega)]
      · rw [eq_singleton_of_flat several climbed, climbLoop_singleton]
        rfl
  | succ bound induction =>
      by_cases several : 1 < level.length
      · have higher := @treeHeight_next sha256 level several
        rw [higher, Function.iterate_succ_apply] at climbed
        rw [climbLoop, if_pos several, pairFrom_eq, List.drop_zero,
          List.nil_append, higher]
        have above := induction climbed (passes + 1)
        rw [Nat.add_assoc, Nat.add_comm 1] at above
        simp only [Nat.add_le_add_iff_right]
        exact above
      · have flat : treeHeight [root].length = 0 := rfl
        rw [eq_singleton_of_flat several climbed, climbLoop_singleton, flat,
          if_pos (Nat.zero_le (bound + 1))]
        rfl

/-- Of three leaves the last one is paired with itself. -/
theorem recursiveRoot_three (first second third : Digest)
    (nonempty : [first, second, third] ≠ []) :
    recursiveRoot sha256 [first, second, third] nonempty =
      nodeHash sha256
        (nodeHash sha256 (leafHash sha256 first) (leafHash sha256 second))
        (nodeHash sha256 (leafHash sha256 third) (leafHash sha256 third)) := by
  have heights : treeHeight 3 = 2 ∧ treeHeight 2 = 1 ∧ treeHeight 1 = 0 := by
    decide
  have alone : List.take 1 [first, second] = [first] := rfl
  simp [recursiveRoot, treeRoot, leftCount, pairedUp, heights, alone]

/--
For every nonempty list of leaves the loops end after as many passes as the
logarithm of their number, rounded up, without an index out of range, and leave
the root of the recursive tree.
-/
theorem computeRoot_eq_recursiveRoot (sha256 : Bytes → Digest)
    (rowHashes : List Digest) (nonempty : rowHashes ≠ []) :
    computeRoot sha256 rowHashes =
        .ok (recursiveRoot sha256 rowHashes nonempty) ∧
      ∀ bound,
        computeRootLoop sha256 bound rowHashes =
          if Nat.clog 2 rowHashes.length ≤ bound then
            .ok
              (recursiveRoot sha256 rowHashes nonempty,
                Nat.clog 2 rowHashes.length)
          else .error .morePasses := by
  have joins :
      ∀ left right, nodeHash sha256 left right = sha256 (nodeInput (left, right)) :=
    fun _ _ => rfl
  constructor
  · rw [computeRoot, leafLevel,
      climb_eq_treeRoot (leafHash sha256) (nodeHash sha256) joins rowHashes
        nonempty]
    rfl
  · intro bound
    have lengths : (leafLevel sha256 rowHashes).length = rowHashes.length :=
      List.length_map _
    have climbed :=
      iterate_next_leaves (leafHash sha256) (nodeHash sha256) joins rowHashes
        nonempty
    rw [← lengths] at climbed
    have looped := climbLoop_eq climbed bound 0
    rw [lengths, Nat.zero_add] at looped
    rw [computeRootLoop, if_neg (by simpa using nonempty)]
    exact looped

/-- Three leaves need two passes. -/
theorem computeRoot_eq_recursiveRoot_threeLeaves :
    let sha256 := Trackward.Lib.Sha256.sha256
    let root :=
      nodeHash sha256
        (nodeHash sha256 (leafHash sha256 leafOne) (leafHash sha256 leafTwo))
        (nodeHash sha256 (leafHash sha256 leafOne) (leafHash sha256 leafOne))
    computeRoot sha256 [leafOne, leafTwo, leafOne] = .ok root ∧
      computeRootLoop sha256 2 [leafOne, leafTwo, leafOne] = .ok (root, 2) := by
  intro sha256 root
  have nonempty : [leafOne, leafTwo, leafOne] ≠ [] := List.cons_ne_nil _ _
  rcases computeRoot_eq_recursiveRoot sha256 _ nonempty with ⟨computed, looped⟩
  rw [recursiveRoot_three] at computed looped
  exact ⟨computed, looped 2⟩

end Trackward.ChainCore.MerkleLoops
