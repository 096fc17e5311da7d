import Mathlib.Data.List.Sort

/-!
# Sorting by a comparison

A comparison that answers with a truth value is a total order when it is
transitive, total and antisymmetric.  A list sorted by such a comparison of
some part of its entries shows, in that part, no trace of the order it had
before.
-/

namespace Trackward.Lib.ComparisonOrders

variable {α κ μ : Type}

/-- The comparison is a total order. -/
structure TotalOrder (before : κ → κ → Bool) : Prop where
  antisymm :
    ∀ first second, before first second → before second first →
      first = second
  trans :
    ∀ first second third, before first second → before second third →
      before first third
  total : ∀ first second, before first second || before second first

theorem TotalOrder.refl {before : κ → κ → Bool} (order : TotalOrder before)
    (value : κ) : before value value := by
  have either := order.total value value
  rwa [Bool.or_self] at either

/-- The usual order of a linear order. -/
theorem totalOrder_le [LinearOrder κ] :
    TotalOrder fun first second : κ => decide (first ≤ second) where
  antisymm := by
    intro first second below above
    exact le_antisymm (of_decide_eq_true below) (of_decide_eq_true above)
  trans := by
    intro first second third below above
    exact
      decide_eq_true
        (le_trans (of_decide_eq_true below) (of_decide_eq_true above))
  total := by
    intro first second
    rw [Bool.or_eq_true, decide_eq_true_iff, decide_eq_true_iff]
    exact le_total first second

/-- By an injective key with values in a linear order. -/
theorem totalOrder_of_injective [LinearOrder μ] {key : κ → μ}
    (injective : Function.Injective key) :
    TotalOrder fun first second => decide (key first ≤ key second) where
  antisymm := by
    intro first second below above
    exact injective (totalOrder_le.antisymm _ _ below above)
  trans := fun first second third =>
    totalOrder_le.trans (key first) (key second) (key third)
  total := fun first second => totalOrder_le.total (key first) (key second)

/-! ## Pairs -/

/-- By the first component and, where it is equal, by the second. -/
def lexBefore (before : κ → κ → Bool) (before' : μ → μ → Bool)
    (first second : κ × μ) : Bool :=
  if before first.1 second.1 && before second.1 first.1 then
    before' first.2 second.2
  else before first.1 second.1

theorem lexBefore_iff {before : κ → κ → Bool} (order : TotalOrder before)
    {before' : μ → μ → Bool} {first second : κ × μ} :
    lexBefore before before' first second ↔
      first.1 = second.1 ∧ before' first.2 second.2 ∨
        first.1 ≠ second.1 ∧ before first.1 second.1 := by
  rw [lexBefore]
  split
  · rename_i both
    rw [Bool.and_eq_true] at both
    have same := order.antisymm _ _ both.1 both.2
    simp [same]
  · rename_i notBoth
    have apart : first.1 ≠ second.1 := by
      intro same
      rw [same] at notBoth
      simp [order.refl] at notBoth
    simp [apart]

/-- Comparing pairs by their components is a total order. -/
theorem TotalOrder.lex {before : κ → κ → Bool} {before' : μ → μ → Bool}
    (order : TotalOrder before) (order' : TotalOrder before') :
    TotalOrder (lexBefore before before') where
  antisymm := by
    rintro ⟨key, value⟩ ⟨key', value'⟩ below above
    rw [lexBefore_iff order] at below above
    rcases below with ⟨same, below⟩ | ⟨apart, below⟩
    · rcases above with ⟨_, above⟩ | ⟨apart, _⟩
      · exact Prod.ext same (order'.antisymm _ _ below above)
      · exact absurd same.symm apart
    · rcases above with ⟨same, _⟩ | ⟨_, above⟩
      · exact absurd same.symm apart
      · exact absurd (order.antisymm _ _ below above) apart
  trans := by
    rintro ⟨key, value⟩ ⟨key', value'⟩ ⟨key'', value''⟩ below above
    rw [lexBefore_iff order] at below above ⊢
    dsimp only at below above ⊢
    rcases below with ⟨rfl, below⟩ | ⟨apart, below⟩
    · rcases above with ⟨rfl, above⟩ | ⟨apart', above⟩
      · exact Or.inl ⟨rfl, order'.trans _ _ _ below above⟩
      · exact Or.inr ⟨apart', above⟩
    · rcases above with ⟨rfl, above⟩ | ⟨apart', above⟩
      · exact Or.inr ⟨apart, below⟩
      · refine Or.inr ⟨?_, order.trans _ _ _ below above⟩
        rintro rfl
        exact apart (order.antisymm _ _ below above)
  total := by
    rintro ⟨key, value⟩ ⟨key', value'⟩
    rw [Bool.or_eq_true, lexBefore_iff order, lexBefore_iff order]
    dsimp only
    by_cases same : key = key'
    · have either := order'.total value value'
      rw [Bool.or_eq_true] at either
      rcases either with below | above
      · exact Or.inl (Or.inl ⟨same, below⟩)
      · exact Or.inr (Or.inl ⟨same.symm, above⟩)
    · have either := order.total key key'
      rw [Bool.or_eq_true] at either
      rcases either with below | above
      · exact Or.inl (Or.inr ⟨same, below⟩)
      · exact Or.inr (Or.inr ⟨Ne.symm same, above⟩)

/-! ## Sorted lists -/

/-- Sorting by a total order forgets the order a list had before. -/
theorem TotalOrder.mergeSort_eq_of_perm {before : κ → κ → Bool}
    (order : TotalOrder before) {keys keys' : List κ}
    (perm : keys.Perm keys') :
    keys.mergeSort before = keys'.mergeSort before := by
  have rearranged :
      (keys.mergeSort before).Perm (keys'.mergeSort before) :=
    (List.mergeSort_perm keys before).trans
      (perm.trans (List.mergeSort_perm keys' before).symm)
  apply rearranged.eq_of_pairwise _
    (List.pairwise_mergeSort order.trans order.total keys)
    (List.pairwise_mergeSort order.trans order.total keys')
  intro first second _ _ below above
  exact order.antisymm first second below above

/-- Entries sorted by a part of them agree in it if they had the same parts. -/
theorem TotalOrder.map_mergeSort_eq_of_perm {before : κ → κ → Bool}
    (order : TotalOrder before) {key : α → κ} {entries entries' : List α}
    (perm : (entries.map key).Perm (entries'.map key)) :
    (entries.mergeSort fun first second =>
          before (key first) (key second)).map key =
      (entries'.mergeSort fun first second =>
          before (key first) (key second)).map key := by
  have parts : ∀ listed : List α,
      (listed.mergeSort fun first second =>
            before (key first) (key second)).map key =
        (listed.map key).mergeSort before :=
    fun listed => List.map_mergeSort fun _ _ _ _ => rfl
  rw [parts, parts, order.mergeSort_eq_of_perm perm]

end Trackward.Lib.ComparisonOrders
