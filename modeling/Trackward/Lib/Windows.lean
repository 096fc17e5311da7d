import Trackward.Lib.Growth
import Mathlib.Order.CompletePartialOrder
import Mathlib.Order.Interval.Set.Disjoint

/-!
# Half-open windows on a line

A window covers the points after its start up to its finish.  A list of
windows grows `Contiguous` when every new window starts at the latest finish
so far, and `Stale` when it starts at the latest finish of some earlier moment.

Windows that grow contiguously are disjoint.  Conversely, nonempty windows with
stale starts are disjoint only if they are contiguous: the first window that
overtook a stale start covers what comes right after it, and so does the stale
window.
-/

namespace Trackward.Lib.Windows

open Trackward.Lib.Growth

variable {κ : Type} [LinearOrder κ]

/-- The points after `start` up to `finish`. -/
structure Window (κ : Type) where
  start : κ
  finish : κ
  deriving DecidableEq

/-- The points a window covers. -/
def Window.points (window : Window κ) : Set κ :=
  Set.Ioc window.start window.finish

/-- The latest finish of some windows, `origin` without windows. -/
def latest (origin : κ) (windows : List (Window κ)) : κ :=
  (windows.map Window.finish).foldl max origin

@[simp]
theorem latest_nil (origin : κ) : latest origin [] = origin := rfl

@[simp]
theorem latest_concat
    (origin : κ) (windows : List (Window κ)) (window : Window κ) :
    latest origin (windows ++ [window]) =
      max (latest origin windows) window.finish := by
  simp [latest]

theorem latest_mono
    (origin : κ) {earlier later : List (Window κ)}
    (grown : earlier <+: later) :
    latest origin earlier ≤ latest origin later := by
  rcases grown with ⟨rest, rfl⟩
  induction rest using List.reverseRecOn with
  | nil => rw [List.append_nil]
  | append_singleton rest window induction =>
      rw [← List.append_assoc, latest_concat]
      exact induction.trans (le_max_left _ _)

theorem origin_le_latest (origin : κ) (windows : List (Window κ)) :
    origin ≤ latest origin windows :=
  latest_mono origin List.nil_prefix

theorem finish_le_latest
    (origin : κ) {windows : List (Window κ)} {window : Window κ}
    (member : window ∈ windows) :
    window.finish ≤ latest origin windows := by
  rcases List.append_of_mem member with ⟨before, after, rfl⟩
  have grown : before ++ [window] <+: before ++ window :: after :=
    ⟨after, by simp⟩
  have reached := latest_mono origin grown
  rw [latest_concat] at reached
  exact (le_max_right _ _).trans reached

/-- A bound of the origin and of all finishes bounds the latest finish. -/
theorem latest_le_iff
    (origin : κ) {windows : List (Window κ)} {bound : κ} :
    latest origin windows ≤ bound ↔
      origin ≤ bound ∧ ∀ window ∈ windows, window.finish ≤ bound := by
  induction windows using List.reverseRecOn with
  | nil => simp
  | append_singleton windows window induction =>
      simp only [latest_concat, max_le_iff, induction, List.mem_append,
        List.mem_singleton, or_imp, forall_and, forall_eq]
      tauto

/-- A point after the origin and not after the latest finish is reached. -/
theorem exists_le_finish
    {origin point : κ} {windows : List (Window κ)}
    (after : origin < point) (reached : point ≤ latest origin windows) :
    ∃ window ∈ windows, point ≤ window.finish := by
  by_contra unreached
  have before : latest origin windows < point := by
    clear reached
    induction windows using List.reverseRecOn with
    | nil => exact after
    | append_singleton windows window induction =>
        rw [latest_concat]
        apply max_lt
        · apply induction
          rintro ⟨other, member, reaches⟩
          exact unreached ⟨other, List.mem_append_left _ member, reaches⟩
        · apply lt_of_not_ge
          intro reaches
          exact unreached ⟨window, by simp, reaches⟩
  exact absurd reached (not_le_of_gt before)

/-! ## Growth -/

/-- Every window starts at the latest finish of those before it. -/
def Contiguous (origin : κ) (windows : List (Window κ)) : Prop :=
  Grows (fun before window => window.start = latest origin before) windows

/--
Every window is nonempty and starts at the latest finish of some windows that
were there at an earlier moment.
-/
def Stale (origin : κ) (windows : List (Window κ)) : Prop :=
  Grows
    (fun before window =>
      window.start < window.finish ∧
        ∃ seen, seen <+: before ∧ window.start = latest origin seen)
    windows

/--
The first window starts at the origin, each later one where the one before it
ends, and the ends increase.
-/
def Adjoining : κ → List (Window κ) → Prop
  | _, [] => True
  | origin, window :: windows =>
      window.start = origin ∧ origin < window.finish ∧
        Adjoining window.finish windows

/-- Pairwise disjoint windows. -/
def Apart (windows : List (Window κ)) : Prop :=
  windows.Pairwise fun first second =>
    Disjoint first.points second.points

theorem latest_cons
    (origin : κ) (window : Window κ) (windows : List (Window κ)) :
    latest origin (window :: windows) =
      latest (max origin window.finish) windows := rfl

/-- Adjoining windows are extended at the latest finish. -/
theorem Adjoining.concat {origin : κ} {windows : List (Window κ)}
    {window : Window κ} (adjoining : Adjoining origin windows)
    (starts : window.start = latest origin windows)
    (nonempty : window.start < window.finish) :
    Adjoining origin (windows ++ [window]) := by
  induction windows generalizing origin with
  | nil =>
      rw [latest_nil] at starts
      rw [starts] at nonempty
      exact ⟨starts, nonempty, trivial⟩
  | cons first windows induction =>
      rcases adjoining with ⟨isFirst, later, rest⟩
      rw [latest_cons, max_eq_right later.le] at starts
      exact ⟨isFirst, later, induction rest starts⟩

theorem Adjoining.origin_le {origin : κ} {windows : List (Window κ)}
    (adjoining : Adjoining origin windows) :
    ∀ window ∈ windows, origin ≤ window.finish := by
  induction windows generalizing origin with
  | nil =>
      intro window absurdity
      cases absurdity
  | cons first windows induction =>
      rcases adjoining with ⟨_, later, rest⟩
      intro window member
      rcases List.mem_cons.mp member with rfl | member
      · exact later.le
      · exact later.le.trans (induction rest window member)

theorem apart_concat_iff
    {windows : List (Window κ)} {window : Window κ} :
    Apart (windows ++ [window]) ↔
      Apart windows ∧
        ∀ other ∈ windows, Disjoint other.points window.points := by
  rw [Apart, List.pairwise_append]
  simp [Apart]

/-- Contiguous windows are disjoint. -/
theorem Contiguous.apart {origin : κ} {windows : List (Window κ)}
    (contiguous : Contiguous origin windows) : Apart windows := by
  induction windows using List.reverseRecOn with
  | nil => exact .nil
  | append_singleton windows window induction =>
      have split := grows_concat_iff.mp contiguous
      refine apart_concat_iff.mpr ⟨induction split.1, ?_⟩
      intro other member
      rw [Window.points, Window.points, Set.Ioc_disjoint_Ioc]
      have before : other.finish ≤ window.start := by
        rw [split.2]
        exact finish_le_latest origin member
      exact (min_le_left _ _).trans (before.trans (le_max_right _ _))

/-- The first window that overtakes an earlier moment starts there. -/
theorem exists_overtaking
    {origin : κ} {seen rest : List (Window κ)}
    (contiguous : Contiguous origin (seen ++ rest))
    (overtaken : latest origin seen < latest origin (seen ++ rest)) :
    ∃ window ∈ rest,
      window.start = latest origin seen ∧
        latest origin seen < window.finish := by
  induction rest using List.reverseRecOn with
  | nil =>
      rw [List.append_nil] at overtaken
      exact absurd overtaken (lt_irrefl _)
  | append_singleton rest window induction =>
      rw [← List.append_assoc] at contiguous overtaken
      have split := grows_concat_iff.mp contiguous
      by_cases already :
          latest origin seen < latest origin (seen ++ rest)
      · rcases induction split.1 already with ⟨first, member, starts⟩
        exact ⟨first, List.mem_append_left _ member, starts⟩
      · have unchanged : latest origin (seen ++ rest) = latest origin seen :=
          le_antisymm (le_of_not_gt already)
            (latest_mono origin (List.prefix_append seen rest))
        refine ⟨window, by simp, ?_, ?_⟩
        · rw [split.2, unchanged]
        · rw [latest_concat, unchanged, lt_max_iff] at overtaken
          exact overtaken.resolve_left (lt_irrefl _)

/-- Contiguous windows that are not empty reach further and further. -/
theorem Contiguous.latest_lt {origin : κ} {seen rest : List (Window κ)}
    (contiguous : Contiguous origin (seen ++ rest))
    (nonempty : ∀ window ∈ rest, window.start < window.finish)
    (more : rest ≠ []) :
    latest origin seen < latest origin (seen ++ rest) := by
  cases rest with
  | nil => exact absurd rfl more
  | cons window rest =>
      have starts : window.start = latest origin seen :=
        contiguous seen window ⟨rest, by simp⟩
      have reaches : window.finish ≤ latest origin (seen ++ window :: rest) :=
        finish_le_latest origin (by simp)
      rw [← starts]
      exact (nonempty window List.mem_cons_self).trans_le reaches

/-- Windows with stale starts are disjoint exactly if they are contiguous. -/
theorem apart_iff_contiguous
    {origin : κ} {windows : List (Window κ)}
    (stale : Stale origin windows) :
    Apart windows ↔ Contiguous origin windows := by
  constructor
  · intro apart
    induction windows using List.reverseRecOn with
    | nil => exact grows_nil
    | append_singleton windows window induction =>
        have split := grows_concat_iff.mp stale
        have apartSplit := apart_concat_iff.mp apart
        have contiguous := induction split.1 apartSplit.1
        refine grows_concat_iff.mpr ⟨contiguous, ?_⟩
        rcases split.2 with ⟨nonempty, seen, ⟨rest, rfl⟩, starts⟩
        by_contra moved
        have overtaken :
            latest origin seen < latest origin (seen ++ rest) := by
          apply lt_of_le_of_ne
          · exact latest_mono origin (List.prefix_append seen rest)
          · rwa [← starts]
        rcases exists_overtaking contiguous overtaken with
          ⟨first, member, firstStarts, later⟩
        -- both windows cover what follows the stale start
        have disjoint :=
          apartSplit.2 first (List.mem_append_right seen member)
        rw [Window.points, Window.points, Set.Ioc_disjoint_Ioc,
          firstStarts, starts, max_self, min_le_iff] at disjoint
        rw [starts] at nonempty
        rcases disjoint with early | early
        · exact absurd later (not_lt_of_ge early)
        · exact absurd nonempty (not_lt_of_ge early)
  · exact Contiguous.apart

/--
What is gathered window by window is gathered at once from the origin to the
latest finish, if gathering is additive and the windows are contiguous.
-/
theorem Contiguous.flatMap_gather {α : Type} {origin : κ}
    {windows : List (Window κ)} (contiguous : Contiguous origin windows)
    (gather : κ → κ → List α)
    (empty : ∀ point, gather point point = [])
    (additive :
      ∀ first second third, first ≤ second → second ≤ third →
        gather first second ++ gather second third = gather first third)
    (nonempty : ∀ window ∈ windows, window.start ≤ window.finish) :
    (windows.flatMap fun window => gather window.start window.finish) =
      gather origin (latest origin windows) := by
  induction windows using List.reverseRecOn with
  | nil => exact (empty origin).symm
  | append_singleton windows window induction =>
      rcases grows_concat_iff.mp contiguous with ⟨earlier, starts⟩
      have forward : window.start ≤ window.finish :=
        nonempty window (List.mem_append_right _ List.mem_cons_self)
      have before := induction earlier fun other member =>
        nonempty other (List.mem_append_left _ member)
      rw [List.flatMap_append, before, List.flatMap_singleton, latest_concat]
      rw [starts] at forward ⊢
      rw [max_eq_right forward]
      exact additive _ _ _ (origin_le_latest origin windows) forward

end Trackward.Lib.Windows
