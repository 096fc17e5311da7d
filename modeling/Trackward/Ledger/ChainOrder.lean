import Trackward.Ledger.Concurrency
import Trackward.Lib.BackLinks

/-!
# One chain per table and run

The lock of a chain is taken after the transaction has begun, and the tail is
the row with the greatest start time, not the one committed last.  The chain of
a table and run stays a single list exactly as long as the transactions that
write to it commit in the order they began, the last one excepted.
-/

namespace Trackward.Ledger.ChainOrder

open Trackward.ChainCore.Encode
open Trackward.Ledger.Chain
open Trackward.Ledger.Concurrency
open Trackward.Ledger.Models
open Trackward.Lib.BackLinks
open Trackward.Lib.KeyedLists
open Trackward.Lib.Octets
open Trackward.Lib.Runs
open Trackward.Lib.Sessions
open Trackward.Lib.Transactions

/-- The row hash of a row. -/
def rowHash (row : ChainedRow) : Bytes :=
  row.columns.rowHash

/-- The hash a row is linked to. -/
def prevHash (row : ChainedRow) : Option Bytes :=
  row.columns.prevHash

/-- The chained rows, in commit order, form one list without forks. -/
structure SingleChain (rows : List ChainedRow) : Prop where
  root :
    rows ≠ [] → rows.countP (fun row => (prevHash row).isNone) = 1
  noFork : (rows.map prevHash).Nodup
  linked :
    rows.IsChain fun first second => prevHash second = some (rowHash first)

theorem singleChain_iff_unforked {rows : List ChainedRow}
    (distinct : (rows.map rowHash).Nodup) :
    SingleChain rows ↔ Unforked rowHash prevHash rows := by
  rw [unforked_iff distinct]
  constructor
  · intro single
    exact ⟨single.root, single.noFork, single.linked⟩
  · rintro ⟨root, noFork, linked⟩
    exact ⟨root, noFork, linked⟩

/-- Every row of a chain names the tail of the rows committed before it. -/
theorem grownBy_tailRow
    {service : Service} (setting : Setting) {table : ChainTable}
    {runId : Uuid} {rows : List Row}
    (fresh : ∀ rows, setting.base rows → chainOf table runId rows = [])
    (grown :
      History setting.base (protocol service setting table runId).admits
        rows) :
    GrownBy rowHash prevHash tailRow (chainOf table runId rows) := by
  induction grown with
  | base isBase =>
      rw [fresh _ isBase]
      exact grownBy_nil _
  | append _ admitted induction =>
      rcases admitted with ⟨⟨request, row, rfl, admissible⟩, _⟩
      by_cases member :
          ∃ chained, row = .chained chained ∧
            inChain table runId chained = true
      · rcases member with ⟨chained, rfl, inside⟩
        rw [chainOf_concat_of_inChain inside, grownBy_concat_iff]
        exact ⟨induction, admissible inside⟩
      · rw [chainOf_concat_of_not_inChain]
        · exact induction
        · intro chained same
          by_contra inside
          rw [Bool.not_eq_false] at inside
          exact member ⟨chained, same, inside⟩

/-! ## When a chain is single -/

/--
In every state the ledger reaches, the chain of a table and run is a single
list exactly if its rows, the last one excepted, were committed in the order of
their `created_at` and ids.
-/
theorem singleChain_iff_committed_in_order
    {Client : Type} [DecidableEq Client] (service : Service)
    (table : ChainTable) (runId : Uuid) {world : LedgerWorld Client}
    (reached :
      Reachable
        (ledger service fun rows => chainOf table runId rows = [])
        unrestricted world)
    (distinct :
      ((chainOf table runId world.shared.committed).map rowHash).Nodup) :
    SingleChain (chainOf table runId world.shared.committed) ↔
      (chainOf table runId world.shared.committed).dropLast.Pairwise
        fun first second => stamp first < stamp second := by
  have grown :=
    grownBy_tailRow (.free fun rows => chainOf table runId rows = [])
      (fun _ empty => empty) (history_free table runId reached)
  rw [singleChain_iff_unforked distinct]
  exact unforked_iff_of_grownBy_greatest distinct grown

/-- Client 1 appends two events, client 2 a third one. -/
def orderedSchedule : List (Move Nat Request (Choice Fault)) :=
  .arrive 1 (append 1) :: answers 1 1 8 ++ .depart 1 ::
    .arrive 1 (append 2) :: answers 1 2 8 ++
      .arrive 2 (append 3) :: answers 2 3 8

/-- Three events were committed in the order of their start times. -/
def ordered (world : LedgerWorld Nat) : Bool :=
  let rows := chainOf .events 7 world.shared.committed
  rows.length = 3 ∧ (rows.map rowHash).Nodup ∧
    rows.dropLast.Pairwise fun first second => stamp first < stamp second

/-- Appends one after another build a single chain of three rows. -/
theorem singleChain_of_orderedSchedule :
    ∃ world : LedgerWorld Nat,
      Reachable
          (ledger plainService fun rows => chainOf .events 7 rows = [])
          unrestricted world ∧
        (chainOf .events 7 world.shared.committed).length = 3 ∧
          SingleChain (chainOf .events 7 world.shared.committed) := by
  have starts :
      (ledger plainService fun rows => chainOf .events 7 rows = []).initial
        (resting [runSeven]) :=
    initial_resting rfl
  rcases
      Reachable.exists_of_replay unrestricted_of_anyMove starts
        orderedSchedule ordered (by decide +kernel) with
    ⟨world, reached, inOrder⟩
  simp only [ordered, decide_eq_true_eq] at inOrder
  exact ⟨world, reached, inOrder.1,
    (singleChain_iff_committed_in_order plainService .events 7 reached
      inOrder.2.1).mpr inOrder.2.2⟩

/-! ## A schedule that forks -/

/--
Client 1 begins first but commits second: the third event is linked, like the
first one committed, to the row with the latest start.
-/
def forkingSchedule : List (Move Nat Request (Choice Fault)) :=
  .arrive 1 (append 1) :: answers 1 1 1 ++
    .arrive 2 (append 2) :: answers 2 2 8 ++ answers 1 2 7 ++
      .arrive 3 (append 3) :: answers 3 3 8

/-- Two rows of the chain of events of run 7 name one predecessor. -/
def forked (world : LedgerWorld Nat) : Bool :=
  let rows := chainOf .events 7 world.shared.committed
  (rows.map rowHash).Nodup ∧ ¬ (rows.map prevHash).Nodup

/-- Not every run keeps a chain single, whatever order transactions take. -/
theorem not_singleChain_of_overlapping_appends :
    ¬ ∀ (service : Service) (table : ChainTable) (runId : Uuid)
        (world : LedgerWorld Nat),
      Reachable
          (ledger service fun rows => chainOf table runId rows = [])
          unrestricted world →
        ((chainOf table runId world.shared.committed).map rowHash).Nodup →
          SingleChain (chainOf table runId world.shared.committed) := by
  intro always
  have starts :
      (ledger plainService fun rows => chainOf .events 7 rows = []).initial
        (resting [runSeven]) :=
    initial_resting rfl
  rcases
      Reachable.exists_of_replay unrestricted_of_anyMove starts
        forkingSchedule forked (by decide +kernel) with
    ⟨world, reached, fork⟩
  simp only [forked, decide_eq_true_eq] at fork
  exact fork.2 (always plainService .events 7 world reached fork.1).noFork

/-! ## Walks to the root -/

/--
Forked or not, in every state the ledger reaches the first row of a chain is
its only root, and from every row a walk along `prev_hash` leads back to it.
-/
theorem exists_walk_to_root
    {Client : Type} [DecidableEq Client] (service : Service)
    (table : ChainTable) (runId : Uuid) {world : LedgerWorld Client}
    (reached :
      Reachable
        (ledger service fun rows => chainOf table runId rows = [])
        unrestricted world)
    {first : ChainedRow} {rest : List ChainedRow}
    (rows : chainOf table runId world.shared.committed = first :: rest) :
    prevHash first = none ∧
      (∀ row ∈ rest, (prevHash row).isSome = true) ∧
        ∀ row ∈ first :: rest,
          ∃ walk,
            IsWalk rowHash prevHash (first :: rest) (first :: walk) ∧
              (first :: walk).getLast? = some row := by
  have grown :=
    grownBy_tailRow (.free fun rows => chainOf table runId rows = [])
      (fun _ empty => empty) (history_free table runId reached)
  rw [rows] at grown
  have root : prevHash first = none ∧
      ∀ row ∈ rest, (prevHash row).isSome = true := by
    refine grown.root_iff ?_ rfl
    intro row before
    rw [Option.isSome_iff_ne_none]
    intro absurdity
    cases greatest_eq_none_iff.mp absurdity
  refine ⟨root.1, root.2, fun row member => ?_⟩
  rcases grown.exists_walk (fun _ _ => List.argmax_mem) member with
    ⟨start, walk, isWalk, isRoot, ends⟩
  have starts : start = first := by
    rcases List.mem_cons.mp (isWalk.1.subset List.mem_cons_self) with
      same | later
    · exact same
    · have linked := root.2 start later
      rw [isRoot] at linked
      cases linked
  rw [starts] at isWalk ends
  exact ⟨walk, isWalk, ends⟩

/-- In a forked chain, the second row of a fork still leads to the root. -/
theorem exists_walk_to_root_of_forkingSchedule :
    ∃ (world : LedgerWorld Nat) (first : ChainedRow)
        (rest : List ChainedRow),
      chainOf .events 7 world.shared.committed = first :: rest ∧
        ¬ ((first :: rest).map prevHash).Nodup ∧
          ∀ row ∈ first :: rest,
            ∃ walk,
              IsWalk rowHash prevHash (first :: rest) (first :: walk) ∧
                (first :: walk).getLast? = some row := by
  have starts :
      (ledger plainService fun rows => chainOf .events 7 rows = []).initial
        (resting [runSeven]) :=
    initial_resting rfl
  rcases
      Reachable.exists_of_replay unrestricted_of_anyMove starts
        forkingSchedule forked (by decide +kernel) with
    ⟨world, reached, fork⟩
  simp only [forked, decide_eq_true_eq] at fork
  cases rows : chainOf .events 7 world.shared.committed with
  | nil =>
      rw [rows] at fork
      exact absurd List.nodup_nil fork.2
  | cons first rest =>
      rw [rows] at fork
      exact ⟨world, first, rest, rows, fork.2,
        (exists_walk_to_root plainService .events 7 reached rows).2.2⟩

end Trackward.Ledger.ChainOrder
