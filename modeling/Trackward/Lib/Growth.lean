import Mathlib.Data.List.Induction

/-!
# Lists that grow by appends

`Grows holds items` says that every item of a list satisfied a condition on
the items before it at the moment it was appended.  The numbers 1, 2, ..., n in
this order are the list that grows by appending one more than its maximum.
-/

namespace Trackward.Lib.Growth

variable {α : Type}

/-- Every item satisfied `holds` with respect to the items before it. -/
def Grows (holds : List α → α → Prop) (items : List α) : Prop :=
  ∀ before item, before ++ [item] <+: items → holds before item

variable {holds : List α → α → Prop} {items : List α} {item : α}

theorem grows_nil : Grows holds ([] : List α) := by
  intro before item grown
  simp at grown

/-- Growth is checked append by append. -/
theorem grows_concat_iff :
    Grows holds (items ++ [item]) ↔ Grows holds items ∧ holds items item := by
  constructor
  · intro grown
    refine ⟨?_, grown items item List.prefix_rfl⟩
    intro before other earlier
    exact grown before other
      (earlier.trans (List.prefix_append items [item]))
  · rintro ⟨grown, last⟩ before other earlier
    rcases List.prefix_concat_iff.mp earlier with whole | earlier
    · rcases List.append_inj' whole rfl with ⟨rfl, single⟩
      rw [List.cons.injEq] at single
      rw [single.1]
      exact last
    · exact grown before other earlier

theorem Grows.concat (grown : Grows holds items) (last : holds items item) :
    Grows holds (items ++ [item]) :=
  grows_concat_iff.mpr ⟨grown, last⟩

/-- An item that is in the list was once appended. -/
theorem Grows.of_mem (grown : Grows holds items) (member : item ∈ items) :
    ∃ before, before <+: items ∧ holds before item := by
  rcases List.append_of_mem member with ⟨before, after, rfl⟩
  refine ⟨before, List.prefix_append _ _, grown before item ?_⟩
  exact ⟨after, by simp⟩

/-! ## Counting -/

/-- The numbers 1, 2, ..., n. -/
def countTo (length : Nat) : List Int :=
  (List.range length).map fun index : Nat => (index : Int) + 1

@[simp]
theorem length_countTo (length : Nat) :
    (countTo length).length = length := by
  simp [countTo]

theorem countTo_succ (length : Nat) :
    countTo (length + 1) = countTo length ++ [(length : Int) + 1] := by
  simp [countTo, List.range_succ]

/-- The numbers counted to increase. -/
theorem pairwise_countTo (length : Nat) :
    (countTo length).Pairwise (· < ·) := by
  rw [countTo, List.pairwise_map]
  apply List.pairwise_lt_range.imp
  intro one other less
  omega

/-- The greatest number counted to, 0 if there is none. -/
theorem max?_countTo (length : Nat) :
    (countTo length).max?.getD 0 = length := by
  induction length with
  | zero => rfl
  | succ length induction =>
      have bounded : ∀ number ∈ countTo length, number ≤ length := by
        intro number member
        rcases List.mem_map.mp member with ⟨index, inRange, rfl⟩
        rw [List.mem_range] at inRange
        omega
      have greatest :
          (countTo (length + 1)).max? = some ((length : Int) + 1) := by
        rw [countTo_succ, List.max?_eq_some_iff]
        constructor
        · simp
        · intro number member
          rcases List.mem_append.mp member with earlier | last
          · have := bounded number earlier
            omega
          · exact Int.le_of_eq (List.mem_singleton.mp last)
      rw [greatest]
      simp

/-- Appending one more than the greatest number goes on counting. -/
theorem countTo_concat {numbers : List Int} {number : Int}
    (counts : numbers = countTo numbers.length)
    (next : number = numbers.max?.getD 0 + 1) :
    numbers ++ [number] = countTo (numbers ++ [number]).length := by
  have greatest : numbers.max?.getD 0 = numbers.length := by
    rw [counts, max?_countTo, length_countTo]
  rw [List.length_append, List.length_singleton, countTo_succ, ← counts,
    next, greatest]

end Trackward.Lib.Growth
