import Trackward.Lib.Collisions

/-!
# Binary hash trees with duplicated odd nodes

A tree is computed level by level.  The nodes of a level are paired from the
left, a last node without a partner is paired with itself, and each pair is
hashed into a node of the next level, until one node remains.

Because of the duplication the last level alone does not determine the number
of leaves: the levels `[a]` and `[a, a]` have the same pairs.  Among trees with
the same number of leaves it determines all of them, unless two different
inputs that were hashed collide.
-/

namespace Trackward.Lib.MerkleTree

open Trackward.Lib.Collisions

variable {δ ι : Type}

/-! ## Levels -/

/-- The nodes of a level in pairs, the last one paired with itself if odd. -/
def pairs : List δ → List (δ × δ)
  | left :: right :: rest => (left, right) :: pairs rest
  | [last] => [(last, last)]
  | [] => []

theorem length_pairs (level : List δ) :
    (pairs level).length = (level.length + 1) / 2 := by
  induction level using pairs.induct with
  | case1 left right rest induction =>
      simp only [pairs, List.length_cons, induction]
      omega
  | case2 last => simp [pairs]
  | case3 => simp [pairs]

/-- Among levels of one length, the pairs determine the level. -/
theorem pairs_inj {level level' : List δ}
    (lengths : level.length = level'.length)
    (same : pairs level = pairs level') : level = level' := by
  induction level using pairs.induct generalizing level' with
  | case1 left right rest induction =>
      match level' with
      | [] => simp at lengths
      | [_] => simp at lengths
      | left' :: right' :: rest' =>
          simp only [pairs, List.cons.injEq, Prod.mk.injEq] at same
          have tails := induction (by simpa using lengths) same.2
          rw [same.1.1, same.1.2, tails]
  | case2 last =>
      match level' with
      | [] => simp at lengths
      | [last'] => simpa [pairs] using same
      | _ :: _ :: _ => simp at lengths
  | case3 =>
      match level' with
      | [] => rfl
      | _ :: _ => simp at lengths

/-! ## Climbing -/

variable (hash : ι → δ) (node : δ × δ → ι)

/-- The next level: every pair is hashed. -/
def next (level : List δ) : List δ :=
  ((pairs level).map node).map hash

theorem length_next (level : List δ) :
    (next hash node level).length = (level.length + 1) / 2 := by
  rw [next, List.length_map, List.length_map, length_pairs]

/-- Climb while more than one node remains, at most `fuel` levels. -/
def climb : Nat → List δ → List δ
  | 0, level => level
  | fuel + 1, level =>
      if 1 < level.length then climb fuel (next hash node level) else level

/-- The inputs hashed while climbing. -/
def climbInputs : Nat → List δ → List ι
  | 0, _ => []
  | fuel + 1, level =>
      if 1 < level.length then
        (pairs level).map node ++ climbInputs fuel (next hash node level)
      else []

/-- As many levels as there are nodes are enough to leave one node. -/
theorem length_climb {fuel : Nat} {level : List δ}
    (enough : level.length ≤ fuel) (nonempty : level ≠ []) :
    (climb hash node fuel level).length = 1 := by
  have positive := List.length_pos_iff.mpr nonempty
  induction fuel generalizing level with
  | zero => omega
  | succ fuel induction =>
      unfold climb
      split
      · have halved := length_next hash node level
        apply induction
        · omega
        · intro empty
          rw [empty, List.length_nil] at halved
          omega
        · omega
      · omega

variable {hash node}

/--
Without a collision among the inputs hashed, the level reached by climbing
determines the level climbed from, among levels of one length.
-/
theorem climb_inj
    (nodeInjective : Function.Injective node)
    {fuel : Nat} {level level' : List δ} {inputs : List ι}
    (lengths : level.length = level'.length)
    (free : CollisionFree hash inputs)
    (hashed : ∀ input ∈ climbInputs hash node fuel level, input ∈ inputs)
    (hashed' : ∀ input ∈ climbInputs hash node fuel level', input ∈ inputs)
    (same : climb hash node fuel level = climb hash node fuel level') :
    level = level' := by
  induction fuel generalizing level level' with
  | zero => exact same
  | succ fuel induction =>
      unfold climb at same
      unfold climbInputs at hashed hashed'
      rw [← lengths] at same hashed'
      split at same
      · rename_i several
        rw [if_pos several] at hashed hashed'
        simp only [List.mem_append] at hashed hashed'
        have nexts : next hash node level = next hash node level' := by
          apply induction
          · rw [length_next, length_next, lengths]
          · exact fun input member => hashed input (Or.inr member)
          · exact fun input member => hashed' input (Or.inr member)
          · exact same
        have inputsSame :=
          free.map_inj
            (fun input member => hashed input (Or.inl member))
            (fun input member => hashed' input (Or.inl member)) nexts
        exact
          pairs_inj lengths (nodeInjective.list_map inputsSame)
      · exact same

end Trackward.Lib.MerkleTree
