import Trackward.Lib.MerkleRepeats
import Mathlib.Algebra.Group.Nat.Defs
import Mathlib.Data.Nat.Log
import Mathlib.Order.Bounds.Basic

/-!
# Hash trees from the top down

The tree over `n` leaves splits at the largest power of two below `n`.  The
left half is a complete tree.  The right half may be lower, and is paired with
itself until both halves have one height.

Climbing level by level computes this tree.  The pairs of the left half never
mix with those of the right half before one node is left of each, because all
levels of the left half but its last have an even number of nodes.
-/

namespace Trackward.Lib.MerkleTree

variable {α δ ι : Type}

/-! ## The recursive tree -/

/-- The height of the tree over this number of leaves, rounded up. -/
def treeHeight (count : Nat) : Nat :=
  Nat.clog 2 count

/-- The largest power of two below a number of leaves. -/
def leftCount (count : Nat) : Nat :=
  2 ^ (treeHeight count - 1)

theorem treeHeight_pos {count : Nat} (several : 1 < count) :
    0 < treeHeight count :=
  Nat.clog_pos Nat.one_lt_two several

theorem treeHeight_leftCount (count : Nat) :
    treeHeight (leftCount count) = treeHeight count - 1 :=
  Nat.clog_pow 2 _ Nat.one_lt_two

theorem leftCount_pos (count : Nat) : 0 < leftCount count :=
  Nat.two_pow_pos _

theorem leftCount_lt {count : Nat} (several : 1 < count) :
    leftCount count < count :=
  Nat.pow_pred_clog_lt_self Nat.one_lt_two several

/-- No power of two below the number of leaves is greater. -/
theorem isGreatest_leftCount {count : Nat} (several : 1 < count) :
    IsGreatest {power | (∃ exponent, power = 2 ^ exponent) ∧ power < count}
      (leftCount count) := by
  constructor
  · exact ⟨⟨_, rfl⟩, leftCount_lt several⟩
  · rintro _ ⟨⟨exponent, rfl⟩, below⟩
    have lower : exponent < treeHeight count :=
      (Nat.lt_clog_iff_pow_lt Nat.one_lt_two).mpr below
    apply Nat.pow_le_pow_right Nat.two_pos
    omega

theorem sub_leftCount_le {count : Nat} (several : 1 < count) :
    count - leftCount count ≤ leftCount count := by
  have covered : count ≤ 2 ^ treeHeight count :=
    Nat.le_pow_clog Nat.one_lt_two count
  have positive := treeHeight_pos several
  have doubled : 2 ^ treeHeight count = 2 * leftCount count := by
    rw [leftCount, ← Nat.pow_succ']
    congr 1
    omega
  omega

/-- The right half is not higher than the left half. -/
theorem treeHeight_sub_leftCount_le {count : Nat} (several : 1 < count) :
    treeHeight (count - leftCount count) ≤ treeHeight count - 1 := by
  apply Nat.clog_le_of_le_pow
  exact sub_leftCount_le several

section Tree

variable (leaf : α → δ) (join : δ → δ → δ)

/-- A node paired with itself a number of times. -/
def pairedUp : Nat → δ → δ
  | 0, node => node
  | times + 1, node => pairedUp times (join node node)

/-- The root over nonempty leaves, split at the largest power of two below. -/
def treeRoot : (leaves : List α) → leaves ≠ [] → δ
  | [only], _ => leaf only
  | first :: second :: rest, _ =>
      let leaves := first :: second :: rest
      let split := leftCount leaves.length
      let left :=
        treeRoot (leaves.take split) (by
          rw [ne_eq, List.take_eq_nil_iff, not_or]
          exact ⟨(leftCount_pos _).ne', List.cons_ne_nil _ _⟩)
      let right :=
        treeRoot (leaves.drop split) (by
          rw [ne_eq, List.drop_eq_nil_iff, Nat.not_le]
          exact leftCount_lt (by simp [leaves]))
      let missing :=
        treeHeight leaves.length - 1 - treeHeight (leaves.drop split).length
      join left (pairedUp join missing right)
termination_by leaves => leaves.length
decreasing_by
  · have below : leftCount (rest.length + 1 + 1) < rest.length + 1 + 1 :=
      leftCount_lt (by omega)
    simp only [List.length_take, List.length_cons]
    omega
  · have positive := leftCount_pos (rest.length + 1 + 1)
    simp only [List.length_drop, List.length_cons]
    omega

variable {leaf join}

theorem treeRoot_singleton (only : α) (nonempty : [only] ≠ []) :
    treeRoot leaf join [only] nonempty = leaf only := by
  rw [treeRoot]

/-- The tree over several leaves, for any proofs that its halves are nonempty. -/
theorem treeRoot_several {leaves : List α} (several : 1 < leaves.length)
    (nonempty : leaves ≠ [])
    (nonemptyLeft : leaves.take (leftCount leaves.length) ≠ [])
    (nonemptyRight : leaves.drop (leftCount leaves.length) ≠ []) :
    treeRoot leaf join leaves nonempty =
      join
        (treeRoot leaf join (leaves.take (leftCount leaves.length))
          nonemptyLeft)
        (pairedUp join
          (treeHeight leaves.length - 1 -
            treeHeight (leaves.length - leftCount leaves.length))
          (treeRoot leaf join (leaves.drop (leftCount leaves.length))
            nonemptyRight)) := by
  match leaves with
  | [] => cases several
  | [_] => simp at several
  | first :: second :: rest =>
      rw [treeRoot, List.length_drop]

end Tree

/-! ## Levels of two halves -/

section Levels

variable {hash : ι → δ} {node : δ × δ → ι}

/-- The pairs of an even level and of what follows it do not mix. -/
theorem pairs_append {front : List δ} (even : 2 ∣ front.length)
    (back : List δ) : pairs (front ++ back) = pairs front ++ pairs back := by
  induction front using pairs.induct with
  | case1 left right rest induction =>
      rw [List.length_cons, List.length_cons] at even
      have evenRest : 2 ∣ rest.length := by omega
      rw [List.cons_append, List.cons_append, pairs, pairs,
        induction evenRest, List.cons_append]
  | case2 last =>
      rw [List.length_singleton] at even
      omega
  | case3 => rfl

theorem next_append {front : List δ} (even : 2 ∣ front.length)
    (back : List δ) :
    next hash node (front ++ back) =
      next hash node front ++ next hash node back := by
  rw [next, next, next, pairs_append even, List.map_append, List.map_append]

/-- As long as the front is a complete tree, its levels stand apart. -/
theorem iterate_next_append {front : List δ} {exponent : Nat}
    (complete : front.length = 2 ^ exponent) (back : List δ) {steps : Nat}
    (within : steps ≤ exponent) :
    (next hash node)^[steps] (front ++ back) =
      (next hash node)^[steps] front ++ (next hash node)^[steps] back := by
  induction steps generalizing front back exponent with
  | zero => rfl
  | succ steps induction =>
      obtain ⟨lower, rfl⟩ : ∃ lower, exponent = lower + 1 :=
        ⟨exponent - 1, by omega⟩
      rw [Nat.pow_succ] at complete
      have even : 2 ∣ front.length := ⟨2 ^ lower, by rw [complete, Nat.mul_comm]⟩
      have halved : (next hash node front).length = 2 ^ lower := by
        rw [length_next, complete]
        omega
      rw [Function.iterate_succ_apply, Function.iterate_succ_apply,
        Function.iterate_succ_apply, next_append even,
        induction halved (next hash node back) (by omega)]

/-- Climbing from one node pairs it with itself. -/
theorem iterate_next_singleton (join : δ → δ → δ)
    (joins : ∀ left right, join left right = hash (node (left, right)))
    (steps : Nat) (only : δ) :
    (next hash node)^[steps] [only] = [pairedUp join steps only] := by
  induction steps generalizing only with
  | zero => rfl
  | succ steps induction =>
      have step : next hash node [only] = [join only only] := by
        rw [joins]
        rfl
      rw [Function.iterate_succ_apply, step, induction, pairedUp]

/-! ## Climbing computes the tree -/

/-- One node is left after as many levels as the tree is high. -/
theorem iterate_next_leaves (leaf : α → δ) (join : δ → δ → δ)
    (joins : ∀ left right, join left right = hash (node (left, right)))
    (leaves : List α) (nonempty : leaves ≠ []) :
    (next hash node)^[treeHeight leaves.length] (leaves.map leaf) =
      [treeRoot leaf join leaves nonempty] := by
  induction length : leaves.length using Nat.strong_induction_on
    generalizing leaves with
  | _ count induction =>
      subst length
      rcases Nat.lt_or_ge 1 leaves.length with several | few
      · have below := leftCount_lt several
        have positive := leftCount_pos leaves.length
        have taken :
            (leaves.take (leftCount leaves.length)).length =
              leftCount leaves.length := by
          rw [List.length_take]
          omega
        have dropped :
            (leaves.drop (leftCount leaves.length)).length =
              leaves.length - leftCount leaves.length := List.length_drop
        have nonemptyLeft : leaves.take (leftCount leaves.length) ≠ [] := by
          rw [← List.length_pos_iff, taken]
          exact positive
        have nonemptyRight : leaves.drop (leftCount leaves.length) ≠ [] := by
          rw [← List.length_pos_iff, dropped]
          omega
        have left := induction _ (by omega) _ nonemptyLeft taken
        have right := induction _ (by omega) _ nonemptyRight dropped
        have lower := treeHeight_sub_leftCount_le several
        have parted :
            leaves.map leaf =
              (leaves.take (leftCount leaves.length)).map leaf ++
                (leaves.drop (leftCount leaves.length)).map leaf := by
          rw [← List.map_append, List.take_append_drop]
        -- The halves climb apart to one node each; the right one may be lower.
        have halves :
            (next hash node)^[treeHeight leaves.length - 1]
                (leaves.map leaf) =
              [treeRoot leaf join _ nonemptyLeft] ++
                [pairedUp join
                  (treeHeight leaves.length - 1 -
                    treeHeight (leaves.length - leftCount leaves.length))
                  (treeRoot leaf join _ nonemptyRight)] := by
          rw [← iterate_next_singleton join joins, ← right, ← left,
            treeHeight_leftCount, ← Function.iterate_add_apply,
            Nat.sub_add_cancel lower]
          rw [parted]
          apply iterate_next_append
          · rw [List.length_map, taken, leftCount]
          · exact Nat.le_refl _
        have last : treeHeight leaves.length =
            (treeHeight leaves.length - 1) + 1 := by
          have := treeHeight_pos several
          omega
        rw [treeRoot_several several nonempty nonemptyLeft nonemptyRight,
          joins]
        conv_lhs => rw [last]
        rw [Function.iterate_succ_apply', halves]
        rfl
      · match leaves with
        | [] => exact absurd rfl nonempty
        | [only] =>
            rw [treeRoot_singleton]
            rfl
        | _ :: _ :: _ => simp at few

/-- Given enough levels, climbing ends at the height of the tree. -/
theorem height_eq_treeHeight {fuel count : Nat} (enough : count ≤ fuel) :
    height fuel count = treeHeight count := by
  induction fuel generalizing count with
  | zero =>
      rw [Nat.le_zero.mp enough]
      rfl
  | succ fuel induction =>
      rw [height]
      split
      · rename_i several
        rw [induction (by omega)]
        exact (Nat.clog_of_one_lt Nat.one_lt_two several).symm
      · rename_i few
        exact (Nat.clog_of_right_le_one (Nat.not_lt.mp few) 2).symm

/-- Climbing level by level computes the tree from the top down. -/
theorem climb_eq_treeRoot (leaf : α → δ) (join : δ → δ → δ)
    (joins : ∀ left right, join left right = hash (node (left, right)))
    (leaves : List α) (nonempty : leaves ≠ []) :
    climb hash node leaves.length (leaves.map leaf) =
      [treeRoot leaf join leaves nonempty] := by
  rw [climb_eq_iterate, List.length_map,
    height_eq_treeHeight (Nat.le_refl _)]
  exact iterate_next_leaves leaf join joins leaves nonempty

end Levels

end Trackward.Lib.MerkleTree
