import Mathlib.Data.Nat.Find
import Mathlib.Order.Basic

/-!
# Reading a changing state part by part

A reader reads the parts of a state one after the other while the state
changes.  What it has read is a snapshot if the whole state had these parts at
one moment.

When no part returns to what it was before, this fails exactly if the reading
is torn: a part changes after it was read, and then, or by the same change, a
part changes that is read only later.
-/

namespace Trackward.Lib.Snapshots

variable {Part : Type} {Content : Part → Type}

/-- Between two moments with the same content nothing has changed. -/
def NeverReturns {α : Type} (content : Nat → α) : Prop :=
  ∀ first second third,
    first ≤ second → second ≤ third → content first = content third →
      content second = content first

/-- The content differs at the next moment. -/
def Changes {α : Type} (content : Nat → α) (moment : Nat) : Prop :=
  content moment ≠ content (moment + 1)

/-- What was read of the parts is what they were at one moment. -/
def Snapshot (content : (part : Part) → Nat → Content part)
    (readAt : Part → Nat) (final : Nat) : Prop :=
  ∃ moment ≤ final, ∀ part, content part (readAt part) = content part moment

/-- A part changes after it was read, before one that is read later does. -/
def Torn (content : (part : Part) → Nat → Content part)
    (readAt : Part → Nat) : Prop :=
  ∃ missed seen first second,
    readAt missed ≤ first ∧ first ≤ second ∧ second < readAt seen ∧
      Changes (content missed) first ∧ Changes (content seen) second

/-- Content that does not change from moment to moment stays the same. -/
theorem content_eq_of_not_changes {α : Type} {content : Nat → α}
    {first last : Nat} (ordered : first ≤ last)
    (quiet : ∀ moment, first ≤ moment → moment < last →
      ¬ Changes content moment) :
    content first = content last := by
  induction last, ordered using Nat.le_induction with
  | base => rfl
  | succ last ordered induction =>
      have earlier :=
        induction fun moment after before =>
          quiet moment after (Nat.lt_succ_of_lt before)
      have next := quiet last ordered (Nat.lt_succ_self last)
      rw [Changes, not_not] at next
      rw [earlier, next]

/-- Content that is the same at both ends has not changed in between. -/
theorem NeverReturns.not_changes {α : Type} {content : Nat → α}
    (settled : NeverReturns content) {first moment last : Nat}
    (after : first ≤ moment) (before : moment < last)
    (same : content first = content last) : ¬ Changes content moment := by
  have here := settled first moment last after before.le same
  have next :=
    settled first (moment + 1) last (after.trans (Nat.le_succ moment)) before
      same
  rw [Changes, not_not, here, next]

/-- A reading that is not torn is a snapshot. -/
theorem snapshot_of_not_torn
    {content : (part : Part) → Nat → Content part} {readAt : Part → Nat}
    {final : Nat} (within : ∀ part, readAt part ≤ final)
    (untorn : ¬ Torn content readAt) : Snapshot content readAt final := by
  classical
  -- the first moment after which nothing changes that is read later
  let calm : Nat → Prop := fun moment =>
    ∀ part later, moment ≤ later → later < readAt part →
      ¬ Changes (content part) later
  have exists_calm : ∃ moment, calm moment :=
    ⟨final, fun part later after before =>
      absurd (after.trans_lt before) (within part).not_gt⟩
  have isCalm : calm (Nat.find exists_calm) := Nat.find_spec exists_calm
  have least {moment : Nat} (earlier : moment < Nat.find exists_calm) :
      ¬ calm moment := Nat.find_min exists_calm earlier
  generalize Nat.find exists_calm = start at isCalm least
  have bounded : start ≤ final := by
    by_contra beyond
    apply least (not_le.mp beyond)
    intro part later after before
    exact absurd (after.trans_lt before) (within part).not_gt
  refine ⟨start, bounded, fun part => ?_⟩
  rcases le_or_gt start (readAt part) with after | before
  · exact (content_eq_of_not_changes after (isCalm part)).symm
  · obtain ⟨previous, rfl⟩ : ∃ previous, start = previous + 1 :=
      Nat.exists_eq_succ_of_ne_zero (Nat.ne_zero_of_lt before)
    -- just before, a part changes that is read later
    have disturbed := least (Nat.lt_succ_self previous)
    simp only [calm, not_forall, not_not] at disturbed
    rcases disturbed with ⟨seen, second, from_, to_, changed⟩
    have last : second = previous := by
      by_contra other
      exact
        isCalm seen second (by omega) to_ changed
    subst last
    apply content_eq_of_not_changes before.le
    intro first after earlier missed
    exact
      untorn
        ⟨part, seen, first, second, after, Nat.lt_succ_iff.mp earlier, to_,
          missed, changed⟩

/-- A reading is a snapshot iff it is not torn. -/
theorem snapshot_iff_not_torn
    {content : (part : Part) → Nat → Content part} {readAt : Part → Nat}
    {final : Nat} (settled : ∀ part, NeverReturns (content part))
    (within : ∀ part, readAt part ≤ final) :
    Snapshot content readAt final ↔ ¬ Torn content readAt := by
  refine ⟨?_, snapshot_of_not_torn within⟩
  rintro ⟨moment, _, same⟩
    ⟨missed, seen, first, second, after, ordered, before, missing, present⟩
  rcases le_or_gt moment first with early | late
  · exact
      (settled seen).not_changes (early.trans ordered) before
        (same seen).symm present
  · exact
      (settled missed).not_changes after late (same missed) missing

end Trackward.Lib.Snapshots
