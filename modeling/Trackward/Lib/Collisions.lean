import Mathlib.Data.List.Basic
import Mathlib.Tactic.Common

/-!
# Hashing without collisions

A hash function is never injective on all byte strings, but it may be on the
finitely many that occur in a computation.  `CollisionFree hash inputs` says
that no two different inputs of a list have the same digest.  It is decidable,
so it can be checked for a computation that has been carried out.
-/

namespace Trackward.Lib.Collisions

variable {ι δ : Type}

/-- No two different inputs of the list have the same digest. -/
def CollisionFree (hash : ι → δ) (inputs : List ι) : Prop :=
  ∀ first ∈ inputs, ∀ second ∈ inputs,
    hash first = hash second → first = second

instance [DecidableEq ι] [DecidableEq δ] (hash : ι → δ) (inputs : List ι) :
    Decidable (CollisionFree hash inputs) :=
  inferInstanceAs
    (Decidable (∀ first ∈ inputs, ∀ second ∈ inputs,
      hash first = hash second → first = second))

variable {hash : ι → δ}

theorem CollisionFree.subset {inputs fewer : List ι}
    (free : CollisionFree hash inputs)
    (included : ∀ input ∈ fewer, input ∈ inputs) :
    CollisionFree hash fewer := by
  intro first member second member'
  exact free first (included first member) second (included second member')

/-- Some input with a given digest can be added. -/
theorem CollisionFree.exists_cons {inputs : List ι}
    (free : CollisionFree hash inputs) (input : ι) :
    ∃ added, hash added = hash input ∧ CollisionFree hash (added :: inputs) := by
  by_cases known : ∃ other ∈ inputs, hash other = hash input
  · rcases known with ⟨other, member, same⟩
    refine ⟨other, same, free.subset ?_⟩
    exact fun one inside => (List.mem_cons.mp inside).elim (· ▸ member) id
  · refine ⟨input, rfl, ?_⟩
    intro first member second member' same
    rcases List.mem_cons.mp member with rfl | old
    · rcases List.mem_cons.mp member' with rfl | old'
      · rfl
      · exact absurd ⟨second, old', same.symm⟩ known
    · rcases List.mem_cons.mp member' with rfl | old'
      · exact absurd ⟨first, old, same⟩ known
      · exact free first old second old' same

/-- Lists with the same digests are equal. -/
theorem CollisionFree.map_inj {inputs first second : List ι}
    (free : CollisionFree hash inputs)
    (included : ∀ input ∈ first, input ∈ inputs)
    (included' : ∀ input ∈ second, input ∈ inputs)
    (same : first.map hash = second.map hash) : first = second := by
  induction first generalizing second with
  | nil =>
      cases second with
      | nil => rfl
      | cons _ _ => cases same
  | cons input rest induction =>
      cases second with
      | nil => cases same
      | cons input' rest' =>
          rw [List.map_cons, List.map_cons, List.cons.injEq] at same
          have head :=
            free input (included input List.mem_cons_self)
              input' (included' input' List.mem_cons_self) same.1
          have tail :=
            induction
              (fun other member =>
                included other (List.mem_cons_of_mem _ member))
              (fun other member =>
                included' other (List.mem_cons_of_mem _ member))
              same.2
          rw [head, tail]

end Trackward.Lib.Collisions
